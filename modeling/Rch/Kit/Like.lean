import Mathlib.Data.List.Infix
import Mathlib.Tactic.Common

/-!
# Patterns with wildcards

A pattern is read into its parts: one sign stands for any run of characters, one
for any single character, and a third takes the meaning from the character after
it. A text with its three signs escaped stands for itself, so a pattern that is
an escaped text between two any-runs matches where the text occurs.

A match that ignores case folds the pattern and the text alike, character by
character.
-/

namespace Kit

namespace Like

variable {α : Type} [DecidableEq α]

/-- The signs of a pattern. -/
structure Signs (α : Type) where
  many : α
  one : α
  escape : α

inductive Part (α : Type)
  | many
  | one
  | char (c : α)

variable (s : Signs α)

def Signs.part (c : α) : Part α :=
  if c = s.many then .many else if c = s.one then .one else .char c

/-- A pattern's parts. None where it ends in the escape. -/
def Signs.parts : List α → Option (List (Part α))
  | [] => some []
  | [c] => if c = s.escape then none else some [s.part c]
  | c :: c' :: p =>
    if c = s.escape then (Signs.parts p).map (.char c' :: ·)
    else (Signs.parts (c' :: p)).map (s.part c :: ·)

def Part.run : List (Part α) → List α → Bool
  | [], t => t.isEmpty
  | .many :: p, t => t.tails.any (Part.run p)
  | .one :: _, [] => false
  | .one :: p, _ :: t => Part.run p t
  | .char _ :: _, [] => false
  | .char c :: p, x :: t => decide (x = c) && Part.run p t

def Signs.like (p t : List α) : Bool := (s.parts p).any fun q => Part.run q t

/-- The match that ignores what `fold` makes one. -/
def Signs.ilike (fold : α → α) (p t : List α) : Bool :=
  s.like (p.map fold) (t.map fold)

def Signs.quote (q : List α) : List α :=
  q.flatMap fun c =>
    if c = s.escape ∨ c = s.many ∨ c = s.one then [s.escape, c] else [c]

variable {s}

theorem parts_escape (c : α) (p : List α) :
    s.parts (s.escape :: c :: p) = (s.parts p).map (.char c :: ·) := by
  rw [Signs.parts, if_pos rfl]

theorem parts_plain {c : α} (h : c ≠ s.escape) (p : List α) :
    s.parts (c :: p) = (s.parts p).map (s.part c :: ·) := by
  cases p with
  | nil => simp [Signs.parts, h]
  | cons c' p => rw [Signs.parts, if_neg h]

/-- A quoted text is read as its own characters, whatever follows it. -/
theorem parts_quote (q p : List α) :
    s.parts (s.quote q ++ p) = (s.parts p).map (q.map Part.char ++ ·) := by
  induction q with
  | nil => exact Option.map_id'.symm
  | cons c q ih =>
      have hcons : (s.parts p).map ((c :: q).map Part.char ++ ·) =
          ((s.parts p).map (q.map Part.char ++ ·)).map (.char c :: ·) := by
        rw [Option.map_map]
        rfl
      rw [hcons, ← ih, Signs.quote, List.flatMap_cons]
      split
      · exact parts_escape c _
      · next hplain =>
          rw [not_or, not_or] at hplain
          have hpart : s.part c = .char c := by
            rw [Signs.part, if_neg hplain.2.1, if_neg hplain.2.2]
          rw [← hpart]
          exact parts_plain hplain.1 _

theorem run_chars (q : List α) (p : List (Part α)) (t : List α) :
    Part.run (q.map Part.char ++ p) t = true ↔ ∃ t', t = q ++ t' ∧ Part.run p t' = true := by
  induction q generalizing t with
  | nil => simp
  | cons c q ih =>
      cases t with
      | nil => simp [Part.run]
      | cons x t =>
          rw [List.map_cons, List.cons_append, Part.run, Bool.and_eq_true_iff, ih,
            decide_eq_true_eq]
          simp only [List.cons_append, List.cons.injEq, and_assoc, exists_and_left]

theorem run_many (p : List (Part α)) (t : List α) :
    Part.run (.many :: p) t = true ↔ ∃ a t', t = a ++ t' ∧ Part.run p t' = true := by
  rw [Part.run, List.any_eq_true]
  constructor
  · rintro ⟨t', hmem, hrun⟩
    obtain ⟨a, rfl⟩ := (List.mem_tails _ _).1 hmem
    exact ⟨a, t', rfl, hrun⟩
  · rintro ⟨a, t', rfl, hrun⟩
    exact ⟨t', (List.mem_tails _ _).2 (List.suffix_append a t'), hrun⟩

/-- A quoted text between two any-runs matches where the text occurs. -/
theorem like_quote (hmany : s.many ≠ s.escape) (q t : List α) :
    s.like (s.many :: (s.quote q ++ [s.many])) t = true ↔ q <:+: t := by
  have hlast : s.parts [s.many] = some [.many] := by
    rw [parts_plain hmany, Signs.parts, Option.map_some, Signs.part, if_pos rfl]
  have hparts : s.parts (s.many :: (s.quote q ++ [s.many])) =
      some (.many :: (q.map Part.char ++ [.many])) := by
    rw [parts_plain hmany, parts_quote, hlast, Signs.part, if_pos rfl]
    rfl
  rw [Signs.like, hparts, Option.any_some, run_many]
  constructor
  · rintro ⟨a, t', rfl, hrun⟩
    obtain ⟨b, rfl, -⟩ := (run_chars q _ _).1 hrun
    exact ⟨a, b, List.append_assoc _ _ _⟩
  · rintro ⟨a, b, rfl⟩
    refine ⟨a, q ++ b, List.append_assoc _ _ _, (run_chars q _ _).2 ⟨b, rfl, ?_⟩⟩
    exact (run_many [] b).2 ⟨b, [], (List.append_nil b).symm, rfl⟩

/-- A text that escapes nothing, with an any-run behind it, is a pattern of all it
begins: the other signs in it stand for themselves as well. -/
theorem like_begun (hmany : s.many ≠ s.escape) {q : List α} (hq : s.escape ∉ q)
    (t : List α) : s.like (q ++ [s.many]) (q ++ t) = true := by
  have hparts : s.parts (q ++ [s.many]) = some (q.map s.part ++ [.many]) := by
    induction q with
    | nil =>
        rw [List.nil_append, parts_plain hmany, Signs.parts, Option.map_some, Signs.part,
          if_pos rfl]
        rfl
    | cons c q ih =>
        rw [List.mem_cons, not_or] at hq
        rw [List.cons_append, parts_plain (Ne.symm hq.1), ih hq.2]
        rfl
  rw [Signs.like, hparts, Option.any_some]
  clear hparts hq
  induction q with
  | nil => exact (run_many [] t).2 ⟨t, [], (List.append_nil t).symm, rfl⟩
  | cons c q ih =>
      rw [List.map_cons, List.cons_append, List.cons_append]
      unfold Signs.part
      split
      · exact (run_many _ _).2 ⟨[c], q ++ t, rfl, ih⟩
      · split
        · exact ih
        · rw [Part.run, decide_eq_true rfl]
          exact ih

/-- A fold that makes no other character a sign keeps a quoted text quoted. -/
theorem map_quote {fold : α → α} (h : ∀ c, (fold c = s.escape ↔ c = s.escape) ∧
    (fold c = s.many ↔ c = s.many) ∧ (fold c = s.one ↔ c = s.one)) (q : List α) :
    (s.quote q).map fold = s.quote (q.map fold) := by
  induction q with
  | nil => rfl
  | cons c q ih =>
      rw [Signs.quote, List.flatMap_cons, List.map_append, List.map_cons, Signs.quote,
        List.flatMap_cons]
      refine congrArg₂ _ ?_ ih
      have hsign : (fold c = s.escape ∨ fold c = s.many ∨ fold c = s.one) ↔
          (c = s.escape ∨ c = s.many ∨ c = s.one) := by
        rw [(h c).1, (h c).2.1, (h c).2.2]
      by_cases hc : c = s.escape ∨ c = s.many ∨ c = s.one
      · rw [if_pos hc, if_pos (hsign.2 hc), List.map_cons, List.map_cons, List.map_nil,
          (h s.escape).1.2 rfl]
      · rw [if_neg hc, if_neg (hc ∘ hsign.1), List.map_cons, List.map_nil]

/-- The search that ignores case finds a text where it occurs folded. -/
theorem ilike_quote {fold : α → α} (hmany : s.many ≠ s.escape)
    (h : ∀ c, (fold c = s.escape ↔ c = s.escape) ∧
      (fold c = s.many ↔ c = s.many) ∧ (fold c = s.one ↔ c = s.one)) (q t : List α) :
    s.ilike fold (s.many :: (s.quote q ++ [s.many])) t = true ↔
      q.map fold <:+: t.map fold := by
  rw [Signs.ilike, List.map_cons, List.map_append, map_quote h, List.map_cons, List.map_nil,
    (h s.many).2.1.2 rfl]
  exact like_quote hmany _ _

end Like

end Kit
