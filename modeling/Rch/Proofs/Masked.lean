import Rch.Domain.Json
import Mathlib.Tactic.Common

/-!
# What masking lets through

Two values that are alike but for what their secret keys hold are masked into
one. The two are walked together, and a secret key stops the walk in both at
once, whatever either holds there.

What no secret key stands above is let through: masking and looking a value up
by such a path come to the same in either order. So a value without secrets is
not touched, and a masked one, which has none left, is not touched again.
-/

namespace Rch

namespace Json

mutual

/-- The two differ only in what stands under secret keys. -/
inductive Alike : Json → Json → Prop
  | null : Alike .null .null
  | bool (b : Bool) : Alike (.bool b) (.bool b)
  | num (n : ℚ) : Alike (.num n) (.num n)
  | str (s : String) : Alike (.str s) (.str s)
  | arr {l l' : List Json} : AlikeEach l l' → Alike (.arr l) (.arr l')
  | obj {fields fields' : List (String × Json)} :
      AlikeFields fields fields' → Alike (.obj fields) (.obj fields')

inductive AlikeEach : List Json → List Json → Prop
  | nil : AlikeEach [] []
  | cons {j j' : Json} {l l' : List Json} :
      Alike j j' → AlikeEach l l' → AlikeEach (j :: l) (j' :: l')

inductive AlikeFields :
    List (String × Json) → List (String × Json) → Prop
  | nil : AlikeFields [] []
  /-- Any two values do, under a secret key. -/
  | secret {k : String} (j j' : Json) {l l' : List (String × Json)} :
      k ∈ SECRET_KEYS → AlikeFields l l' →
      AlikeFields ((k, j) :: l) ((k, j') :: l')
  | open_ (k : String) {j j' : Json} {l l' : List (String × Json)} :
      Alike j j' → AlikeFields l l' →
      AlikeFields ((k, j) :: l) ((k, j') :: l')

end

/-- One step down into a value. -/
inductive Step
  | index (i : ℕ)
  | key (k : String)
deriving DecidableEq

/-- The step is not to a secret. -/
def Step.plain : Step → Bool
  | .index _ => true
  | .key k => decide (k ∉ SECRET_KEYS)

def at_ : List Step → Json → Option Json
  | [], j => some j
  | .index i :: path, .arr l => l[i]?.bind (at_ path)
  | .key k :: path, .obj fields => (fields.lookup k).bind (at_ path)
  | _ :: _, _ => none

mutual

/-- No secret key stands in the value, at any depth. -/
def secretless : Json → Bool
  | .arr l => secretlessEach l
  | .obj fields => secretlessFields fields
  | _ => true

def secretlessEach : List Json → Bool
  | [] => true
  | j :: l => secretless j && secretlessEach l

def secretlessFields : List (String × Json) → Bool
  | [] => true
  | (k, j) :: l =>
    decide (k ∉ SECRET_KEYS) && secretless j && secretlessFields l

end

end Json

open Json

/-! ## Two runs -/

mutual

theorem maskSecrets_alike {j j' : Json} (h : Alike j j') :
    maskSecrets j = maskSecrets j' := by
  cases h with
  | null => rfl
  | bool b => rfl
  | num n => rfl
  | str s => rfl
  | arr hl => rw [maskSecrets, maskSecrets, maskEach_alike hl]
  | obj hl => rw [maskSecrets, maskSecrets, maskFields_alike hl]

theorem maskEach_alike {l l' : List Json} (h : AlikeEach l l') :
    maskEach l = maskEach l' := by
  cases h with
  | nil => rfl
  | cons hj hl => rw [maskEach, maskEach, maskSecrets_alike hj, maskEach_alike hl]

theorem maskFields_alike {l l' : List (String × Json)} (h : AlikeFields l l') :
    maskFields l = maskFields l' := by
  cases h with
  | nil => rfl
  | secret j j' hk hl =>
      rw [maskFields, maskFields, if_pos hk, if_pos hk, maskFields_alike hl]
  | open_ k hj hl =>
      rw [maskFields, maskFields, maskSecrets_alike hj, maskFields_alike hl]

end

/-! ## What is let through -/

mutual

theorem maskSecrets_secretless {j : Json} (h : secretless j = true) :
    maskSecrets j = j := by
  cases j with
  | null => rfl
  | bool b => rfl
  | num n => rfl
  | str s => rfl
  | arr l => rw [maskSecrets, maskEach_secretless h]
  | obj fields => rw [maskSecrets, maskFields_secretless h]

theorem maskEach_secretless {l : List Json} (h : secretlessEach l = true) :
    maskEach l = l := by
  cases l with
  | nil => rfl
  | cons j l =>
      rw [secretlessEach, Bool.and_eq_true] at h
      rw [maskEach, maskSecrets_secretless h.1, maskEach_secretless h.2]

theorem maskFields_secretless {l : List (String × Json)}
    (h : secretlessFields l = true) : maskFields l = l := by
  cases l with
  | nil => rfl
  | cons f l =>
      obtain ⟨k, j⟩ := f
      rw [secretlessFields, Bool.and_eq_true, Bool.and_eq_true,
        decide_eq_true_eq] at h
      rw [maskFields, if_neg h.1.1, maskSecrets_secretless h.1.2,
        maskFields_secretless h.2]

end

theorem maskEach_eq_map (l : List Json) : maskEach l = l.map maskSecrets := by
  induction l with
  | nil => rfl
  | cons j l ih => rw [maskEach, List.map_cons, ih]

theorem lookup_maskFields (k : String) (l : List (String × Json)) :
    (maskFields l).lookup k =
      (l.lookup k).map fun j =>
        if k ∈ SECRET_KEYS then .str MASK else maskSecrets j := by
  induction l with
  | nil => rfl
  | cons f l ih =>
      obtain ⟨k', j⟩ := f
      rw [maskFields, List.lookup_cons, List.lookup_cons]
      by_cases hk : k = k'
      · subst hk
        rw [beq_self_eq_true]
        rfl
      · rw [beq_false_of_ne hk]
        exact ih

/-- Down a path with no secret key on it, masking comes before or after. -/
theorem at_maskSecrets {path : List Step} (h : path.all Step.plain = true)
    (j : Json) :
    (maskSecrets j).at_ path = (j.at_ path).map maskSecrets := by
  induction path generalizing j with
  | nil => rfl
  | cons s path ih =>
      rw [List.all_cons, Bool.and_eq_true] at h
      cases s with
      | index i =>
          cases j with
          | arr l =>
              rw [maskSecrets, at_, at_, maskEach_eq_map, List.getElem?_map]
              cases l[i]? with
              | none => rfl
              | some j => exact ih h.2 j
          | null => rfl
          | bool b => rfl
          | num n => rfl
          | str s => rfl
          | obj fields => rfl
      | key k =>
          cases j with
          | obj fields =>
              have hk : k ∉ SECRET_KEYS := of_decide_eq_true h.1
              rw [maskSecrets, at_, at_, lookup_maskFields]
              cases fields.lookup k with
              | none => rfl
              | some j =>
                  simp only [Option.map_some, Option.bind_some, if_neg hk]
                  exact ih h.2 j
          | null => rfl
          | bool b => rfl
          | num n => rfl
          | str s => rfl
          | arr l => rfl

/-! ## Once is enough -/

mutual

theorem maskSecrets_idem (j : Json) :
    maskSecrets (maskSecrets j) = maskSecrets j := by
  cases j with
  | null => rfl
  | bool b => rfl
  | num n => rfl
  | str s => rfl
  | arr l => rw [maskSecrets, maskSecrets, maskEach_idem]
  | obj fields => rw [maskSecrets, maskSecrets, maskFields_idem]

theorem maskEach_idem (l : List Json) : maskEach (maskEach l) = maskEach l := by
  cases l with
  | nil => rfl
  | cons j l => rw [maskEach, maskEach, maskSecrets_idem, maskEach_idem]

theorem maskFields_idem (l : List (String × Json)) :
    maskFields (maskFields l) = maskFields l := by
  cases l with
  | nil => rfl
  | cons f l =>
      obtain ⟨k, j⟩ := f
      rw [maskFields, maskFields, maskFields_idem]
      by_cases hk : k ∈ SECRET_KEYS
      · rw [if_pos hk, if_pos hk]
      · rw [if_neg hk, if_neg hk, maskSecrets_idem]

end

/-- Nothing secret is kept, and nothing else is lost. -/
theorem masked_for_good :
    (∀ j j' : Json, Alike j j' → maskSecrets j = maskSecrets j') ∧
      (∀ (j v : Json) (path : List Step), path.all Step.plain = true →
        j.at_ path = some v →
        (maskSecrets j).at_ path = some (maskSecrets v) ∧
          (v.secretless = true → (maskSecrets j).at_ path = some v)) ∧
      ∀ j : Json, maskSecrets (maskSecrets j) = maskSecrets j := by
  refine ⟨fun j j' => maskSecrets_alike, fun j v path hpath hv => ?_,
    maskSecrets_idem⟩
  have hmasked : (maskSecrets j).at_ path = some (maskSecrets v) := by
    rw [at_maskSecrets hpath, hv, Option.map_some]
  refine ⟨hmasked, fun hplain => ?_⟩
  rw [hmasked, maskSecrets_secretless hplain]

def signInBody (password : String) : Json :=
  .obj [("emp", .str "RCH-0142"), ("password", .str password)]

theorem masked_for_good_sign_in :
    maskSecrets (signInBody "monsoon-24") = maskSecrets (signInBody "letmein") ∧
      (maskSecrets (signInBody "monsoon-24")).at_ [.key "emp"] =
        some (.str "RCH-0142") :=
  ⟨masked_for_good.1 _ _
      (.obj (.open_ _ (.str _) (.secret _ _ (by decide) .nil))),
    (masked_for_good.2.1 _ _ _ (by decide) (by rfl)).2 (by rfl)⟩

end Rch
