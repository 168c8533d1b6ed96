import Mathlib.Data.List.Sort
import Mathlib.Tactic.Common

/-!
# Pages by key

A list is read newest first, a page at a time. A page is asked for by the key of
the last row of the page before, and one row past it says whether there is
another.

The list may grow between two pages, anywhere in its order. The pages read one
after another still never name a row twice, and they name every row that was
there when the first was read, as far down as they have come: the last key marks
the same place whatever came in above or below it.
-/

namespace Kit

namespace Keyset

variable {α : Type} (key : α → ℕ)

def newest (l : List α) : List α := l.insertionSort fun a b => key b ≤ key a

/-- Is the row past the mark? Every row is past none. -/
def past (before : Option ℕ) (a : α) : Bool := before.all fun n => decide (key a < n)

structure Page (α : Type) where
  rows : List α
  next : Option ℕ

/-- The first rows, one past the limit to tell whether there are more. -/
def cut (s : List α) (limit : ℕ) : Page α :=
  let found := s.take (limit + 1)
  if limit < found.length then
    ⟨found.take limit, (found.take limit).getLast?.map key⟩
  else ⟨found, none⟩

def page (l : List α) (before : Option ℕ) (limit : ℕ) : Page α :=
  cut key (newest key (l.filter (past key before))) limit

/-- Rows newest first, no key twice. -/
def Newest (rows : List α) : Prop := rows.Pairwise fun a b => key b < key a

/-- The row is not past where the pages have come to. -/
def Reached (next : Option ℕ) (a : α) : Prop := ∀ n, next = some n → n ≤ key a

/-- What a page of a list is. -/
structure PageOf (l : List α) (before : Option ℕ) (p : Page α) : Prop where
  newest : Newest key p.rows
  mem : ∀ a ∈ p.rows, a ∈ l ∧ past key before a = true
  reached : ∀ a ∈ p.rows, Reached key p.next a
  mark : ∀ n, p.next = some n → ∃ a ∈ p.rows, key a = n
  complete : ∀ a ∈ l, past key before a = true → Reached key p.next a → a ∈ p.rows

/-- What the pages read so far show of a list, as it was when the first was
read. -/
structure Listed (l : List α) (rows : List α) (next : Option ℕ) : Prop where
  newest : Newest key rows
  reached : ∀ a ∈ rows, Reached key next a
  complete : ∀ a ∈ l, Reached key next a → a ∈ rows

variable {key}

theorem newest_newest {l : List α} (h : (l.map key).Nodup) :
    Newest key (newest key l) := by
  have hsorted : (newest key l).Pairwise fun a b => key b ≤ key a :=
    List.pairwise_insertionSort _ l
  have hperm : (newest key l).Perm l := List.perm_insertionSort _ l
  have hne : (newest key l).Pairwise fun a b => key a ≠ key b :=
    List.pairwise_map.1 ((hperm.map key).nodup_iff.2 h)
  exact hsorted.and hne |>.imp fun hab => by omega

theorem cut_of_lt {s : List α} {limit : ℕ} (h : limit < s.length) :
    cut key s limit = ⟨s.take limit, (s.take limit).getLast?.map key⟩ := by
  have hlen : limit < (s.take (limit + 1)).length := by
    rw [List.length_take]
    omega
  rw [cut, if_pos hlen, List.take_take, Nat.min_eq_left (Nat.le_succ limit)]

theorem cut_of_le {s : List α} {limit : ℕ} (h : s.length ≤ limit) :
    cut key s limit = ⟨s, none⟩ := by
  have hall : s.take (limit + 1) = s := List.take_of_length_le (by omega)
  rw [cut, hall, if_neg (Nat.not_lt.2 h)]

/-- The last row of a page is the mark, and the rows after it are the rest. -/
theorem exists_mark (key : α → ℕ) {s : List α} {limit : ℕ} (h : limit < s.length)
    (hlimit : 0 < limit) : ∃ front last rest, s.take limit = front ++ [last] ∧
      s = front ++ last :: rest ∧ (cut key s limit).next = some (key last) := by
  have hne : s.take limit ≠ [] := by
    intro hnil
    have hlen := congrArg List.length hnil
    rw [List.length_take, List.length_nil] at hlen
    omega
  have hsplit : s.take limit = (s.take limit).dropLast ++ [(s.take limit).getLast hne] :=
    (List.dropLast_append_getLast hne).symm
  refine ⟨_, _, s.drop limit, hsplit, ?_, ?_⟩
  · rw [← List.singleton_append, ← List.append_assoc, ← hsplit, List.take_append_drop]
  · rw [cut_of_lt h, List.getLast?_eq_getLast_of_ne_nil hne, Option.map_some]

theorem cut_newest {s : List α} {limit : ℕ} (hs : Newest key s) :
    Newest key (cut key s limit).rows := by
  by_cases h : limit < s.length
  · rw [cut_of_lt h]
    exact hs.sublist (List.take_sublist limit s)
  · rw [cut_of_le (Nat.not_lt.1 h)]
    exact hs

theorem cut_subset {s : List α} {limit : ℕ} {a : α} (h : a ∈ (cut key s limit).rows) :
    a ∈ s := by
  by_cases hlt : limit < s.length
  · rw [cut_of_lt hlt] at h
    exact List.mem_of_mem_take h
  · rwa [cut_of_le (Nat.not_lt.1 hlt)] at h

/-- A row is on the page where it is not past the mark. -/
theorem mem_cut {s : List α} {limit : ℕ} {a : α} (hs : Newest key s)
    (hlimit : 0 < limit) (ha : a ∈ s) :
    a ∈ (cut key s limit).rows ↔ Reached key (cut key s limit).next a := by
  by_cases h : limit < s.length
  · obtain ⟨front, last, rest, htake, hsplit, hnext⟩ := exists_mark key h hlimit
    have hrows : (cut key s limit).rows = front ++ [last] := by rw [cut_of_lt h, htake]
    have hsorted : Newest key (front ++ last :: rest) := hsplit ▸ hs
    obtain ⟨-, hrest, hfront⟩ := List.pairwise_append.1 hsorted
    have hafter := (List.pairwise_cons.1 hrest).1
    rw [hrows, hnext]
    constructor
    · intro hmem n hn
      cases hn
      rcases List.mem_append.1 hmem with hmem | hmem
      · exact (hfront a hmem last List.mem_cons_self).le
      · rw [List.mem_singleton.1 hmem]
    · intro hreached
      have hle := hreached _ rfl
      rw [hsplit] at ha
      rcases List.mem_append.1 ha with hmem | hmem
      · exact List.mem_append_left _ hmem
      · rcases List.mem_cons.1 hmem with rfl | hmem
        · exact List.mem_append_right _ (List.mem_singleton_self a)
        · exact absurd (hafter a hmem) (Nat.not_lt.2 hle)
  · rw [cut_of_le (Nat.not_lt.1 h)]
    exact ⟨fun _ n hn => (by cases hn), fun _ => ha⟩

theorem cut_mark {s : List α} {limit n : ℕ} (hlimit : 0 < limit)
    (h : (cut key s limit).next = some n) : ∃ a ∈ (cut key s limit).rows, key a = n := by
  by_cases hlt : limit < s.length
  · obtain ⟨front, last, rest, htake, -, hnext⟩ := exists_mark key hlt hlimit
    rw [hnext] at h
    cases h
    refine ⟨last, ?_, rfl⟩
    rw [cut_of_lt hlt, htake]
    exact List.mem_append_right _ (List.mem_singleton_self last)
  · rw [cut_of_le (Nat.not_lt.1 hlt)] at h
    cases h

theorem page_spec {l : List α} {limit : ℕ} (hkeys : (l.map key).Nodup)
    (hlimit : 0 < limit) (before : Option ℕ) :
    PageOf key l before (page key l before limit) := by
  have hsorted : Newest key (newest key (l.filter (past key before))) :=
    newest_newest (hkeys.sublist (List.filter_sublist.map key))
  have hmem : ∀ a, a ∈ newest key (l.filter (past key before)) ↔
      a ∈ l ∧ past key before a = true := by
    intro a
    rw [newest, List.mem_insertionSort, List.mem_filter]
  exact {
    newest := cut_newest hsorted
    mem := fun a ha => (hmem a).1 (cut_subset ha)
    reached := fun a ha => (mem_cut hsorted hlimit (cut_subset ha)).1 ha
    mark := fun n hn => cut_mark hlimit hn
    complete := fun a ha hpast hreached =>
      (mem_cut hsorted hlimit ((hmem a).2 ⟨ha, hpast⟩)).2 hreached }

theorem length_of_next {l : List α} {limit n : ℕ} {before : Option ℕ}
    (h : (page key l before limit).next = some n) :
    (page key l before limit).rows.length = limit := by
  unfold page at h ⊢
  by_cases hlt : limit < (newest key (l.filter (past key before))).length
  · rw [cut_of_lt hlt, List.length_take]
    exact Nat.min_eq_left hlt.le
  · rw [cut_of_le (Nat.not_lt.1 hlt)] at h
    cases h

theorem length_page_le {l : List α} {limit : ℕ} {before : Option ℕ} :
    (page key l before limit).rows.length ≤ limit := by
  unfold page
  by_cases hlt : limit < (newest key (l.filter (past key before))).length
  · rw [cut_of_lt hlt]
    exact List.length_take_le limit _
  · rw [cut_of_le (Nat.not_lt.1 hlt)]
    exact Nat.not_lt.1 hlt

theorem exists_past {l : List α} {limit n : ℕ} {before : Option ℕ}
    (hkeys : (l.map key).Nodup) (hlimit : 0 < limit)
    (h : (page key l before limit).next = some n) : ∃ a ∈ l, key a < n := by
  have hsorted : Newest key (newest key (l.filter (past key before))) :=
    newest_newest (hkeys.sublist (List.filter_sublist.map key))
  have hmem : ∀ a ∈ newest key (l.filter (past key before)), a ∈ l := by
    intro a ha
    rw [newest, List.mem_insertionSort] at ha
    exact List.mem_of_mem_filter ha
  unfold page at h
  by_cases hlt : limit < (newest key (l.filter (past key before))).length
  · obtain ⟨front, last, rest, htake, hsplit, hnext⟩ := exists_mark key hlt hlimit
    rw [hnext] at h
    cases h
    have hrest : rest ≠ [] := by
      rintro rfl
      have hlen := congrArg List.length htake
      rw [hsplit, List.length_take, List.length_append, List.length_singleton] at hlen
      rw [hsplit, List.length_append, List.length_singleton] at hlt
      omega
    obtain ⟨a, rest, rfl⟩ := List.exists_cons_of_ne_nil hrest
    rw [hsplit] at hsorted hmem
    have hafter := (List.pairwise_cons.1 (List.pairwise_append.1 hsorted).2.1).1
    refine ⟨a, hmem a ?_, hafter a List.mem_cons_self⟩
    exact List.mem_append_right _ (List.mem_cons_of_mem _ List.mem_cons_self)
  · rw [cut_of_le (Nat.not_lt.1 hlt)] at h
    cases h

/-! ## One page after another -/

theorem PageOf.listed {l : List α} {p : Page α} (h : PageOf key l none p) :
    Listed key l p.rows p.next :=
  ⟨h.newest, h.reached, fun a ha => h.complete a ha rfl⟩

/-- The next page of the list, grown or not, goes on where the rows left off. -/
theorem Listed.append {l l' rows : List α} {n : ℕ} {p : Page α}
    (h : Listed key l rows (some n)) (hgrown : ∀ a ∈ l, a ∈ l')
    (hp : PageOf key l' (some n) p) : Listed key l (rows ++ p.rows) p.next := by
  have hpast : ∀ a, past key (some n) a = true ↔ key a < n := fun a => decide_eq_true_iff
  have hbelow : ∀ a ∈ p.rows, key a < n := fun a ha => (hpast a).1 (hp.mem a ha).2
  have habove : ∀ a ∈ rows, n ≤ key a := fun a ha => h.reached a ha n rfl
  refine ⟨List.pairwise_append.2 ⟨h.newest, hp.newest, ?_⟩, ?_, ?_⟩
  · intro a ha b hb
    exact (hbelow b hb).trans_le (habove a ha)
  · intro a ha
    rcases List.mem_append.1 ha with ha | ha
    · intro m hm
      obtain ⟨b, hb, rfl⟩ := hp.mark m hm
      exact (hbelow b hb).le.trans (habove a ha)
    · exact hp.reached a ha
  · intro a ha hreached
    by_cases hlt : key a < n
    · exact List.mem_append_right _ (hp.complete a (hgrown a ha) ((hpast a).2 hlt) hreached)
    · refine List.mem_append_left _ (h.complete a ha fun m hm => ?_)
      cases hm
      exact Nat.not_lt.1 hlt

end Keyset

end Kit
