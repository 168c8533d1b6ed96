import Mathlib.Data.List.Basic

/-!
# Frames cut out of a stream

A frame ends where its separator stands twice. A reader keeps what it has in a
buffer, adds each chunk at the end, and handles every frame the buffer holds
before it waits for the next.

Reading one chunk and then another is reading the two as one, so the frames
that are handled are those of the whole text, however it came.
-/

namespace Kit

section

variable {α σ : Type} [DecidableEq α]

/-- What stands before the first doubled separator, and what after it. -/
def cutPair (sep : α) : List α → Option (List α × List α)
  | a :: b :: rest =>
    if a = sep ∧ b = sep then some ([], rest)
    else (cutPair sep (b :: rest)).map fun p => (a :: p.1, p.2)
  | _ => none

/-- Handle the frames of a buffer, at most so many. -/
def drain (sep : α) (handle : σ → List α → σ) :
    ℕ → σ → List α → σ × List α
  | 0, s, buf => (s, buf)
  | n + 1, s, buf =>
    match cutPair sep buf with
    | none => (s, buf)
    | some (f, rest) => drain sep handle n (handle s f) rest

/-- Add a chunk to the buffer, and handle all it holds now. -/
def readChunk (sep : α) (handle : σ → List α → σ) (r : σ × List α)
    (chunk : List α) : σ × List α :=
  drain sep handle (r.2 ++ chunk).length r.1 (r.2 ++ chunk)

theorem cutPair_cons {sep a : α} {l f rest : List α}
    (h : cutPair sep (a :: l) = some (f, rest)) :
    (f = [] ∧ a = sep ∧ l = sep :: rest) ∨
      ∃ f', f = a :: f' ∧ cutPair sep l = some (f', rest) := by
  cases l with
  | nil => cases h
  | cons b l =>
      rw [cutPair] at h
      split at h
      · next hsep =>
          cases h
          exact .inl ⟨rfl, hsep.1, by rw [hsep.2]⟩
      · obtain ⟨⟨f', rest'⟩, hcut, hf⟩ := Option.map_eq_some_iff.1 h
        cases hf
        exact .inr ⟨f', rfl, hcut⟩

theorem length_of_cutPair {sep : α} {buf f rest : List α}
    (h : cutPair sep buf = some (f, rest)) : rest.length < buf.length := by
  induction buf generalizing f with
  | nil => cases h
  | cons a l ih =>
      rcases cutPair_cons h with ⟨-, -, rfl⟩ | ⟨f', -, hcut⟩
      · simp only [List.length_cons]
        omega
      · exact Nat.lt_succ_of_lt (ih hcut)

theorem cutPair_append {sep : α} {buf f rest : List α} (more : List α)
    (h : cutPair sep buf = some (f, rest)) :
    cutPair sep (buf ++ more) = some (f, rest ++ more) := by
  induction buf generalizing f with
  | nil => cases h
  | cons a l ih =>
      cases l with
      | nil => cases h
      | cons b l =>
          rw [cutPair] at h
          rw [List.cons_append, List.cons_append, cutPair]
          split at h
          · next hsep =>
              cases h
              rw [if_pos hsep]
          · next hsep =>
              obtain ⟨⟨f', rest'⟩, hcut, hf⟩ := Option.map_eq_some_iff.1 h
              cases hf
              have hmore := ih hcut
              rw [List.cons_append] at hmore
              rw [if_neg hsep, hmore]
              rfl

theorem cutPair_none_of_append {sep : α} {buf more : List α}
    (h : cutPair sep (buf ++ more) = none) : cutPair sep buf = none := by
  cases hcut : cutPair sep buf with
  | none => rfl
  | some p => rw [cutPair_append more hcut] at h; cases h

theorem drain_of_none {sep : α} {handle : σ → List α → σ} {n : ℕ} {s : σ}
    {buf : List α} (h : cutPair sep buf = none) :
    drain sep handle n s buf = (s, buf) := by
  cases n with
  | zero => rfl
  | succ n => rw [drain, h]

/-- More turns than the buffer is long change nothing. -/
theorem drain_turns {sep : α} {handle : σ → List α → σ} {n m : ℕ} {s : σ}
    {buf : List α} (hn : buf.length ≤ n) (hm : buf.length ≤ m) :
    drain sep handle n s buf = drain sep handle m s buf := by
  induction n generalizing m s buf with
  | zero =>
      have hnil : buf = [] := List.length_eq_zero_iff.1 (Nat.le_zero.1 hn)
      subst hnil
      rw [drain_of_none rfl, drain_of_none rfl]
  | succ n ih =>
      cases hcut : cutPair sep buf with
      | none => rw [drain_of_none hcut, drain_of_none hcut]
      | some p =>
          obtain ⟨f, rest⟩ := p
          have hlt := length_of_cutPair hcut
          cases m with
          | zero => omega
          | succ m =>
              rw [drain, drain, hcut]
              exact ih (by omega) (by omega)

theorem drain_append {sep : α} {handle : σ → List α → σ} {n m : ℕ} {s : σ}
    {buf : List α} (more : List α) (hn : buf.length ≤ n)
    (hm : (buf ++ more).length ≤ m) :
    drain sep handle m s (buf ++ more) =
      readChunk sep handle (drain sep handle n s buf) more := by
  induction n generalizing m s buf with
  | zero =>
      have hnil : buf = [] := List.length_eq_zero_iff.1 (Nat.le_zero.1 hn)
      subst hnil
      exact drain_turns hm (Nat.le_refl _)
  | succ n ih =>
      cases hcut : cutPair sep buf with
      | none =>
          rw [drain_of_none hcut, readChunk]
          exact drain_turns hm (Nat.le_refl _)
      | some p =>
          obtain ⟨f, rest⟩ := p
          have hlt := length_of_cutPair hcut
          rw [List.length_append] at hm
          cases m with
          | zero => omega
          | succ m =>
              rw [drain, drain, cutPair_append more hcut, hcut]
              exact ih (by omega) (by rw [List.length_append]; omega)

theorem readChunk_append (sep : α) (handle : σ → List α → σ) (r : σ × List α)
    (x y : List α) :
    readChunk sep handle (readChunk sep handle r x) y =
      readChunk sep handle r (x ++ y) := by
  have h : drain sep handle (r.2 ++ x ++ y).length r.1 (r.2 ++ x ++ y) =
      readChunk sep handle (drain sep handle (r.2 ++ x).length r.1 (r.2 ++ x)) y :=
    drain_append y (Nat.le_refl _) (Nat.le_refl _)
  calc readChunk sep handle (readChunk sep handle r x) y
      = drain sep handle (r.2 ++ x ++ y).length r.1 (r.2 ++ x ++ y) := h.symm
    _ = readChunk sep handle r (x ++ y) := by
        rw [readChunk, List.append_assoc]

/-- What stays in the buffer holds no frame. -/
theorem cutPair_drain {sep : α} {handle : σ → List α → σ} {n : ℕ} {s : σ}
    {buf : List α} (hn : buf.length ≤ n) :
    cutPair sep (drain sep handle n s buf).2 = none := by
  induction n generalizing s buf with
  | zero =>
      have hnil : buf = [] := List.length_eq_zero_iff.1 (Nat.le_zero.1 hn)
      subst hnil
      rfl
  | succ n ih =>
      cases hcut : cutPair sep buf with
      | none => rwa [drain_of_none hcut]
      | some p =>
          obtain ⟨f, rest⟩ := p
          have hlt := length_of_cutPair hcut
          rw [drain, hcut]
          exact ih (by omega)

/-! ## Frames written one after another -/

/-- A frame's text has no doubled separator, its own end apart. -/
def Unbroken (sep : α) (f : List α) : Prop := cutPair sep (f ++ [sep]) = none

theorem unbroken_of_notMem {sep : α} {l : List α} (h : sep ∉ l) :
    Unbroken sep l := by
  induction l with
  | nil => rfl
  | cons a l ih =>
      have ha : ¬a = sep := fun ha => h (ha ▸ List.mem_cons_self)
      have hl := ih fun hmem => h (List.mem_cons_of_mem a hmem)
      unfold Unbroken at hl ⊢
      cases l with
      | nil =>
          rw [List.cons_append, List.nil_append, cutPair,
            if_neg fun hab => ha hab.1]
          rfl
      | cons b l =>
          rw [List.cons_append] at hl
          rw [List.cons_append, List.cons_append, cutPair,
            if_neg fun hab => ha hab.1, hl]
          rfl

theorem unbroken_line {sep : α} {l f : List α} (hl : sep ∉ l)
    (hf : Unbroken sep f) (hhead : f.head? ≠ some sep) (hne : f ≠ []) :
    Unbroken sep (l ++ sep :: f) := by
  unfold Unbroken at hf ⊢
  induction l with
  | nil =>
      cases f with
      | nil => exact absurd rfl hne
      | cons b f =>
          have hb : ¬b = sep := fun hb => hhead (hb ▸ rfl)
          rw [List.cons_append] at hf
          rw [List.nil_append, List.cons_append, List.cons_append, cutPair,
            if_neg fun hab => hb hab.2, hf]
          rfl
  | cons a l ih =>
      have ha : ¬a = sep := fun ha => hl (ha ▸ List.mem_cons_self)
      have hrest := ih fun hmem => hl (List.mem_cons_of_mem a hmem)
      obtain ⟨b, l', hbl⟩ : ∃ b l', l ++ sep :: f ++ [sep] = b :: l' := by
        cases l with
        | nil => exact ⟨sep, f ++ [sep], rfl⟩
        | cons b l => exact ⟨b, l ++ sep :: f ++ [sep], rfl⟩
      rw [hbl] at hrest
      rw [List.cons_append, List.cons_append, hbl, cutPair,
        if_neg fun hab => ha hab.1, hrest]
      rfl

def written (sep : α) (fs : List (List α)) : List α :=
  fs.flatMap fun f => f ++ [sep, sep]

theorem cutPair_unbroken {sep : α} {f : List α} (h : Unbroken sep f)
    (more : List α) : cutPair sep (f ++ sep :: sep :: more) = some (f, more) := by
  induction f with
  | nil => rw [List.nil_append, cutPair, if_pos ⟨rfl, rfl⟩]
  | cons a f ih =>
      -- The two separators at the end cannot start inside the frame.
      have hstep (b : α) (l : List α) (hl : f ++ [sep] = b :: l) :
          ¬(a = sep ∧ b = sep) ∧ cutPair sep (f ++ [sep]) = none := by
        unfold Unbroken at h
        rw [List.cons_append, hl, cutPair] at h
        split at h
        · cases h
        · next hsep =>
            rw [hl]
            exact ⟨hsep, Option.map_eq_none_iff.1 h⟩
      cases f with
      | nil =>
          obtain ⟨hsep, -⟩ := hstep sep [] rfl
          rw [List.cons_append, List.nil_append, cutPair, if_neg hsep, cutPair,
            if_pos ⟨rfl, rfl⟩]
          rfl
      | cons b f =>
          obtain ⟨hsep, hrest⟩ := hstep b (f ++ [sep]) rfl
          have hcut := ih hrest
          rw [List.cons_append] at hcut
          rw [List.cons_append, List.cons_append, cutPair, if_neg hsep, hcut]
          rfl

/-- What is left of a frame cut short holds no frame. -/
theorem cutPair_short {sep : α} {f p : List α} (h : Unbroken sep f)
    (hp : p <+: f ++ [sep]) : cutPair sep p = none := by
  obtain ⟨more, hmore⟩ := hp
  refine cutPair_none_of_append (?_ : cutPair sep (p ++ more) = none)
  rwa [hmore]

/-- Whole frames are handled in order, and what follows them is kept while it
holds none. -/
theorem readChunk_written {sep : α} (handle : σ → List α → σ) {s : σ}
    {fs : List (List α)} {p : List α} (hfs : ∀ f ∈ fs, Unbroken sep f)
    (hp : cutPair sep p = none) :
    readChunk sep handle (s, []) (written sep fs ++ p) =
      (fs.foldl handle s, p) := by
  induction fs generalizing s with
  | nil =>
      rw [readChunk]
      exact drain_of_none hp
  | cons f fs ih =>
      obtain ⟨hf, hfs⟩ := List.forall_mem_cons.1 hfs
      have hone : readChunk sep handle (s, []) (f ++ [sep, sep]) =
          (handle s f, []) := by
        rw [readChunk, List.nil_append, List.length_append, List.length_cons,
          ← Nat.add_assoc, drain, cutPair_unbroken hf []]
        exact drain_of_none rfl
      have htext : written sep (f :: fs) ++ p =
          (f ++ [sep, sep]) ++ (written sep fs ++ p) := by
        rw [written, List.flatMap_cons, List.append_assoc, written]
      rw [htext, ← readChunk_append, hone, ih hfs, List.foldl_cons]

end

end Kit
