import Mathlib.Data.Finset.Card
import Mathlib.Data.Nat.Find
import Mathlib.Tactic.NormNum
import Rch.Domain.Locations
import Std.Data.String.ToNat

/-!
# The key of a new outlet

The stem is a letter and at most nineteen letters, digits and dashes, whatever
the name. The numbers tried behind it give as many different keys, so the search
ends before it has gone past what is taken, and ends on the first number free.

A key fits while its number has the room the stem leaves it. With the stem at
its full twenty that is three digits, and nothing stops the search at a
thousand.
-/

namespace Rch

/-! ## The shape of a stem -/

/-- A letter, then letters, digits and dashes. -/
structure KeyShape (cs : List Char) : Prop where
  letter : ∃ c rest, cs = c :: rest ∧ c.isLower = true
  chars : ∀ c ∈ cs, keyChar c = true ∨ c = '-'

theorem dashRuns_chars (inRun : Bool) (cs : List Char) :
    ∀ c ∈ dashRuns inRun cs, keyChar c = true ∨ c = '-' := by
  induction cs generalizing inRun with
  | nil =>
      intro c hc
      rw [dashRuns] at hc
      cases hc
  | cons d cs ih =>
      intro c hc
      rw [dashRuns] at hc
      split at hc
      · next hd =>
          rcases List.mem_cons.1 hc with rfl | hc
          · exact .inl hd
          · exact ih false c hc
      · split at hc
        · exact ih true c hc
        · rcases List.mem_cons.1 hc with rfl | hc
          · exact .inr rfl
          · exact ih true c hc

theorem trimKey_starts (s : List Char) : trimKey s <+: s :=
  (List.rdropWhile_prefix _ _).trans (List.take_prefix _ _)

theorem length_trimKey (s : List Char) : (trimKey s).length ≤ STEM :=
  (List.rdropWhile_prefix _ _).length_le.trans (List.length_take_le _ _)

theorem outletSlug_chars (name : String) :
    ∀ c ∈ outletSlug name, keyChar c = true ∨ c = '-' := fun c hc =>
  dashRuns_chars _ _ c
    ((List.dropWhile_suffix _).subset ((trimKey_starts _).subset hc))

theorem trimKey_letter {c : Char} {s : List Char} (hc : c.isLower = true) :
    ∃ rest, trimKey (c :: s) = c :: rest := by
  have hdash : c ≠ '-' := by
    rintro rfl
    exact absurd hc (by decide)
  have hne : trimKey (c :: s) ≠ [] := by
    intro hnil
    rw [trimKey, List.rdropWhile_eq_nil_iff] at hnil
    exact hdash (eq_of_beq (hnil c List.mem_cons_self))
  cases htrim : trimKey (c :: s) with
  | nil => exact absurd htrim hne
  | cons d rest =>
      have hstarts := trimKey_starts (c :: s)
      rw [htrim, List.cons_prefix_cons] at hstarts
      exact ⟨rest, by rw [hstarts.1]⟩

theorem outletStem_shape (name : String) :
    KeyShape (outletStem name).toList ∧ (outletStem name).toList.length ≤ STEM := by
  have hslug := outletSlug_chars name
  unfold outletStem
  dsimp only
  rw [String.toList_ofList]
  split
  · next hletter =>
      obtain ⟨c, hhead, hc⟩ := Option.any_eq_true _ _ |>.1 hletter
      obtain ⟨rest, hrest⟩ := List.head?_eq_some_iff.1 hhead
      exact ⟨⟨⟨c, rest, hrest, hc⟩, hslug⟩, length_trimKey _⟩
  · -- the letters of `outlet` come first
    refine ⟨⟨?_, fun c hc => ?_⟩, length_trimKey _⟩
    · obtain ⟨rest, hrest⟩ := trimKey_letter (c := 'o') (by decide)
        (s := "utlet".toList ++
          if outletSlug name = [] then [] else '-' :: outletSlug name)
      exact ⟨'o', rest, hrest, by decide⟩
    · rcases List.mem_append.1 ((trimKey_starts _).subset hc) with hc | hc
      · have houtlet : "outlet".toList.all keyChar = true := by decide
        exact .inl (List.all_eq_true.1 houtlet c hc)
      · split at hc
        · cases hc
        · rcases List.mem_cons.1 hc with rfl | hc
          · exact .inr rfl
          · exact hslug c hc

/-! ## The schema -/

theorem KeyShape.admitted {key : LocKey} (h : KeyShape key.toList)
    (hq : key ≠ QUARANTINE) : locKeySchema key = decide (key.toList.length ≤ 24) := by
  obtain ⟨c, rest, hkey, hc⟩ := h.letter
  have hchars : rest.all (fun c => keyChar c || c == '-') = true := by
    rw [List.all_eq_true]
    intro d hd
    rw [Bool.or_eq_true, beq_iff_eq]
    exact h.chars d (by rw [hkey]; exact List.mem_cons_of_mem _ hd)
  unfold locKeySchema
  rw [decide_eq_true hq, hkey]
  simp only [hc, hchars, List.length_cons, Bool.true_and, Bool.and_true]
  exact decide_eq_decide.2 (by omega)

theorem suffixed_toList (stem : LocKey) (n : ℕ) :
    (suffixed stem n).toList = stem.toList ++ '-' :: Nat.toDigits 10 n := by
  unfold suffixed
  rw [String.toList_append, String.toList_append, List.append_assoc]
  have hdigits : (toString n).toList = Nat.toDigits 10 n := Nat.toList_repr
  rw [hdigits]
  rfl

theorem suffixed_injective (stem : LocKey) : Function.Injective (suffixed stem) := by
  intro n m h
  have hlist := congrArg String.toList h
  rw [suffixed_toList, suffixed_toList] at hlist
  have hdigits := (List.cons.inj (List.append_cancel_left hlist)).2
  rw [← Nat.toList_repr, ← Nat.toList_repr, String.toList_inj] at hdigits
  exact Nat.repr_injective hdigits

theorem suffixed_not_reserved (stem : LocKey) (n : ℕ) :
    suffixed stem n ∉ RESERVED := by
  intro h
  have hdash : '-' ∈ (suffixed stem n).toList := by
    rw [suffixed_toList]
    exact List.mem_append_right _ List.mem_cons_self
  have hnone : ∀ key ∈ RESERVED, '-' ∉ key.toList := by decide
  exact hnone _ h hdash

theorem KeyShape.suffixed {stem : LocKey} (h : KeyShape stem.toList) (n : ℕ) :
    KeyShape (Rch.suffixed stem n).toList := by
  rw [suffixed_toList]
  obtain ⟨c, rest, hstem, hc⟩ := h.letter
  refine ⟨⟨c, rest ++ '-' :: Nat.toDigits 10 n, by rw [hstem]; rfl, hc⟩, ?_⟩
  intro d hd
  rcases List.mem_append.1 hd with hd | hd
  · exact h.chars d hd
  · rcases List.mem_cons.1 hd with rfl | hd
    · exact .inr rfl
    · have hdigit := Nat.isDigit_of_mem_toDigits (by decide) (by decide) hd
      exact .inl (by rw [keyChar, hdigit, Bool.or_true])

def fits (stem : LocKey) (n : ℕ) : Prop := n < 10 ^ (23 - stem.toList.length)

theorem suffixed_length {stem : LocKey} (hlen : stem.toList.length ≤ STEM) (n : ℕ) :
    (suffixed stem n).toList.length ≤ 24 ↔ fits stem n := by
  unfold STEM at hlen
  rw [suffixed_toList, List.length_append, List.length_cons, fits,
    ← Nat.length_toDigits_le_iff (by decide) (by omega)]
  omega

/-! ## The search -/

/-- Among the numbers from `n` on there is a key that is free. -/
theorem exists_free (used : List LocKey) (stem : LocKey) (n : ℕ) :
    ∃ m, n ≤ m ∧ m ≤ n + used.length ∧ suffixed stem m ∉ used := by
  by_contra hall
  push Not at hall
  -- one number more than there are keys in use, each with a key of its own
  let keys := (List.range' n (used.length + 1)).map (suffixed stem)
  have hnodup : keys.Nodup :=
    List.Nodup.map (suffixed_injective stem) List.nodup_range'
  have hsubset : keys ⊆ used := by
    intro key hkey
    obtain ⟨m, hm, rfl⟩ := List.mem_map.1 hkey
    rw [List.mem_range'_1] at hm
    exact hall m hm.1 (by omega)
  have hle := (hnodup.subperm hsubset).length_le
  rw [List.length_map, List.length_range'] at hle
  omega

theorem firstFree_of_first {used : List LocKey} {stem : LocKey} {m : ℕ}
    (hfree : suffixed stem m ∉ used) {n : ℕ} (hn : n ≤ m)
    (hfirst : ∀ k, n ≤ k → k < m → suffixed stem k ∈ used) {fuel : ℕ}
    (hfuel : m - n < fuel) :
    firstFree used stem fuel n = some (suffixed stem m) := by
  induction fuel generalizing n with
  | zero => omega
  | succ fuel ih =>
      rw [firstFree]
      by_cases heq : n = m
      · rw [if_pos (heq ▸ hfree), heq]
      · have hlt : n < m := lt_of_le_of_ne hn heq
        rw [if_neg (not_not_intro (hfirst n le_rfl hlt))]
        exact ih hlt (fun k hk hkm => hfirst k (by omega) hkm) (by omega)

theorem firstFree_ends (used : List LocKey) (stem : LocKey) :
    ∃ n, 2 ≤ n ∧ suffixed stem n ∉ used ∧
      (∀ k, 2 ≤ k → k < n → suffixed stem k ∈ used) ∧
      ∀ fuel, used.length < fuel →
        firstFree used stem fuel 2 = some (suffixed stem n) := by
  classical
  obtain ⟨m, hm, hlen, hused⟩ := exists_free used stem 2
  have hex : ∃ n, 2 ≤ n ∧ suffixed stem n ∉ used := ⟨m, hm, hused⟩
  obtain ⟨hn, hnused⟩ := Nat.find_spec hex
  have hfirst : ∀ k, 2 ≤ k → k < Nat.find hex → suffixed stem k ∈ used := by
    intro k hk hlt
    by_contra hkfree
    exact Nat.find_min hex hlt ⟨hk, hkfree⟩
  have hle : Nat.find hex ≤ m := Nat.find_le ⟨hm, hused⟩
  exact ⟨Nat.find hex, hn, hnused, hfirst, fun fuel hfuel =>
    firstFree_of_first hnused hn hfirst (by omega)⟩

/-- What the code promises of a new key: the search ends on one that is nobody
else's. -/
structure FreshKey (name : String) (taken : List LocKey) (key : LocKey) :
    Prop where
  found : ∀ fuel, taken.length < fuel → outletKeyFor fuel name taken = some key
  free : key ∉ taken
  open_ : key ∉ RESERVED

/-- A key short enough for the schema is free: the stem, or a number behind it
that there is room for. -/
def KeyRoom (name : String) (taken : List LocKey) : Prop :=
  (outletStem name ∉ RESERVED ∧ outletStem name ∉ taken) ∨
    ∃ n, 2 ≤ n ∧ fits (outletStem name) n ∧
      suffixed (outletStem name) n ∉ taken

variable {name : String} {taken : List LocKey} {key key' : LocKey}

theorem FreshKey.unique (h : FreshKey name taken key)
    (h' : FreshKey name taken key') : key = key' :=
  Option.some.inj ((h.found _ (Nat.lt_succ_self _)).symm.trans
    (h'.found _ (Nat.lt_succ_self _)))

/-- The key is the stem where that is free, and else carries the first number
that is. -/
theorem freshKey_cases (name : String) (taken : List LocKey) :
    (outletStem name ∉ RESERVED ∧ outletStem name ∉ taken) ∧
        FreshKey name taken (outletStem name) ∨
      ¬ (outletStem name ∉ RESERVED ∧ outletStem name ∉ taken) ∧
        ∃ n, 2 ≤ n ∧ suffixed (outletStem name) n ∉ taken ∧
          (∀ k, 2 ≤ k → k < n → suffixed (outletStem name) k ∈ taken) ∧
          FreshKey name taken (suffixed (outletStem name) n) := by
  by_cases hfree : outletStem name ∉ RESERVED ∧ outletStem name ∉ taken
  · refine .inl ⟨hfree, fun fuel _ => ?_, hfree.2, hfree.1⟩
    rw [outletKeyFor, if_pos hfree]
  · obtain ⟨n, hn, hnfree, hfirst, hfound⟩ := firstFree_ends taken (outletStem name)
    refine .inr ⟨hfree, n, hn, hnfree, hfirst, fun fuel hfuel => ?_, hnfree,
      suffixed_not_reserved _ _⟩
    rw [outletKeyFor, if_neg hfree]
    exact hfound fuel hfuel

theorem FreshKey.not_quarantine (h : FreshKey name taken key) :
    key ≠ QUARANTINE := by
  rintro rfl
  exact h.open_ (by decide)

theorem FreshKey.admitted_iff (h : FreshKey name taken key) :
    locKeySchema key = true ↔ KeyRoom name taken := by
  obtain ⟨hshape, hlen⟩ := outletStem_shape name
  rcases freshKey_cases name taken with ⟨hfree, hstem⟩ | ⟨hfree, n, hn, hnfree, hfirst, hnum⟩
  · rw [h.unique hstem, hshape.admitted hstem.not_quarantine, decide_eq_true_eq]
    unfold STEM at hlen
    exact ⟨fun _ => .inl hfree, fun _ => by omega⟩
  · rw [h.unique hnum, (hshape.suffixed n).admitted hnum.not_quarantine,
      decide_eq_true_eq, suffixed_length hlen]
    constructor
    · intro hfits
      exact .inr ⟨n, hn, hfits, hnfree⟩
    · -- the number found is no larger than any other that is free
      rintro (hstem | ⟨m, hm, hfits, hmfree⟩)
      · exact absurd hstem hfree
      · have hle : n ≤ m := by
          by_contra hlt
          exact hmfree (hfirst m hm (by omega))
        exact lt_of_le_of_lt hle hfits

/-- A new outlet always gets a key of its own, and the schema admits it exactly
while there is room for its number. -/
theorem outlet_gets_key (name : String) (taken : List LocKey) :
    ∃ key, FreshKey name taken key ∧
      (locKeySchema key = true ↔ KeyRoom name taken) := by
  rcases freshKey_cases name taken with ⟨-, hkey⟩ | ⟨-, n, -, -, -, hkey⟩
  · exact ⟨_, hkey, hkey.admitted_iff⟩
  · exact ⟨_, hkey, hkey.admitted_iff⟩

/-- The outlets of a hospital that numbers its coffee counters. -/
def coffeeKeys : List LocKey :=
  outletStem "Outpatient Coffee Counter" ::
    (List.range' 2 998).map (suffixed (outletStem "Outpatient Coffee Counter"))

theorem no_room_coffee : ¬ KeyRoom "Outpatient Coffee Counter" coffeeKeys := by
  have hlen : (outletStem "Outpatient Coffee Counter").toList.length = 20 := by
    decide +kernel
  rintro (⟨-, hfree⟩ | ⟨n, hn, hfits, hfree⟩)
  · exact hfree List.mem_cons_self
  · rw [fits, hlen] at hfits
    refine hfree (List.mem_cons_of_mem _ (List.mem_map.2 ⟨n, ?_, rfl⟩))
    rw [List.mem_range'_1]
    omega

/-- The thousandth outlet of one stem gets a key no request can name. -/
theorem coffee_key_refused :
    ¬ ∀ (name : String) (taken : List LocKey), ∃ key,
      FreshKey name taken key ∧ locKeySchema key = true := by
  intro h
  obtain ⟨key, hkey, hadmitted⟩ := h "Outpatient Coffee Counter" coffeeKeys
  exact no_room_coffee (hkey.admitted_iff.1 hadmitted)

end Rch
