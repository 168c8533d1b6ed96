import Rch.Screen.Tab

/-!
# A late answer and a newer one

Nothing on this side of the wire keeps the answers in order, except for the
audit log's list. Two reads of one slice may be out at once, the server may
answer them in one order and the network bring them in the other, and the older
answer is then applied over the newer one and stays. Two reads may also drop
their answer, and what they drop may be the newest.

What holds is that the screen follows the wire: while the answers that share a
slice arrive in the order in which the server produced them, and a dropped one
says what is on screen already, no answer is ever applied over a later one, and
once every read has been answered each slice that was read shows what the server
said of it last.
-/

namespace Rch

open Kit

variable {α : Type}

/-! ## What every run keeps -/

def Tab.Reads (t : Tab α) (i : ℕ) (r : Read α) : Prop := t.reads[i]? = some r

theorem Tab.Reads.unique {t : Tab α} {i : ℕ} {r r' : Read α} (h : t.Reads i r)
    (h' : t.Reads i r') : r' = r := Option.some.inj (h'.symm.trans h)

/-- Answer `k` is the one this read has to the route. -/
def Tab.Served (t : Tab α) (i : ℕ) (r : Read α) (route : Route) (k : ℕ) : Prop :=
  t.Reads i r ∧ (route, k) ∈ r.served

structure TabKept (t : Tab α) : Prop where
  /-- A read's answers are numbered as the server gave them. -/
  ascending : ∀ i r, t.Reads i r → r.served.Pairwise fun a b => a.2 < b.2
  known : ∀ i r route k, t.Served i r route k →
    ∃ body, t.answers[k]? = some (route, body)
  /-- Every answer is some read's. -/
  owned : ∀ k route body, t.answers[k]? = some (route, body) →
    ∃ i r, t.Served i r route k
  whole : ∀ i r, t.Reads i r → r.arrived = true →
    ∀ route ∈ r.routes, route ∈ r.served.map Prod.fst
  /-- What has come for a slice came with a read. -/
  heard : ∀ x k, k ∈ t.heard x ↔
    ∃ i r, t.Reads i r ∧ r.arrived = true ∧ k ∈ r.onto x

theorem Read.mem_onto {r : Read α} {x : Slice} {k : ℕ} :
    k ∈ r.onto x ↔ ∃ route, (route, k) ∈ r.served ∧ x ∈ route.sets := by
  simp only [Read.onto, List.mem_reverse, List.mem_map, List.mem_filter,
    decide_eq_true_eq, Prod.exists, exists_eq_right]

theorem Tab.Served.lt {t : Tab α} (h : TabKept t) {i : ℕ} {r : Read α}
    {route : Route} {k : ℕ} (hs : t.Served i r route k) :
    k < t.answers.length := by
  obtain ⟨body, hbody⟩ := h.known i r route k hs
  exact (List.getElem?_eq_some_iff.1 hbody).1

/-- A read's place, after another was written there. -/
theorem get?_set {l : List (Read α)} {i j : ℕ} {r r' : Read α}
    (h : (l.set i r)[j]? = some r') :
    (j = i ∧ r' = r) ∨ (j ≠ i ∧ l[j]? = some r') := by
  rw [List.getElem?_set] at h
  split at h
  · next hij =>
      split at h
      · exact .inl ⟨hij.symm, (Option.some.inj h).symm⟩
      · cases h
  · next hij => exact .inr ⟨Ne.symm hij, h⟩

/-- A read that has gone out has no answer yet. -/
theorem get?_sent {t u : Tab α} {calls : List (List Route)} {i : ℕ} {r : Read α}
    (h : (t.reads ++ calls.map u.send)[i]? = some r) :
    t.reads[i]? = some r ∨ (r.served = [] ∧ r.arrived = false) := by
  rw [List.getElem?_append] at h
  split at h
  · exact .inl h
  · obtain ⟨routes, hm, rfl⟩ := List.mem_map.1 (List.mem_of_getElem? h)
    exact .inr ⟨rfl, rfl⟩

theorem get?_of_sent {t : Tab α} (u : Tab α) (calls : List (List Route)) {i : ℕ}
    {r : Read α} (h : t.reads[i]? = some r) :
    (t.reads ++ calls.map u.send)[i]? = some r := by
  rw [List.getElem?_append_left (List.getElem?_eq_some_iff.1 h).1]
  exact h

theorem TabKept.sent {t : Tab α} (h : TabKept t) (calls : List (List Route))
    (days : ℕ) :
    TabKept { t with
      kitchenDays := days
      reads := t.reads ++ calls.map { t with kitchenDays := days }.send } where
  ascending i r hr := by
    rcases get?_sent hr with hr | ⟨hs, -⟩
    · exact h.ascending i r hr
    · rw [hs]
      exact .nil
  known i r route k hk := by
    rcases get?_sent hk.1 with hr | ⟨hs, -⟩
    · exact h.known i r route k ⟨hr, hk.2⟩
    · have hmem := hk.2
      rw [hs] at hmem
      cases hmem
  owned k route body hk := by
    obtain ⟨i, r, hr, hmem⟩ := h.owned k route body hk
    exact ⟨i, r, get?_of_sent _ calls hr, hmem⟩
  whole i r hr ha := by
    rcases get?_sent hr with hr | ⟨-, hf⟩
    · exact h.whole i r hr ha
    · rw [hf] at ha
      cases ha
  heard x k := by
    refine (h.heard x k).trans ⟨?_, ?_⟩
    · rintro ⟨i, r, hr, ha, hk⟩
      exact ⟨i, r, get?_of_sent _ calls hr, ha, hk⟩
    · rintro ⟨i, r, hr, ha, hk⟩
      rcases get?_sent hr with hr | ⟨-, hf⟩
      · exact ⟨i, r, hr, ha, hk⟩
      · rw [hf] at ha
        cases ha

theorem TabKept.served {t : Tab α} (h : TabKept t) {i : ℕ} {r : Read α}
    {route : Route} (hr : t.Reads i r) (hopen : r.arrived = false) :
    TabKept
      { t with
        answers := t.answers ++ [(route, t.world r.days)]
        reads := t.reads.set i
          { r with served := r.served ++ [(route, t.answers.length)] } } where
  ascending j r' hr' := by
    rcases get?_set hr' with ⟨rfl, rfl⟩ | ⟨-, hr'⟩
    · refine List.pairwise_append.2
        ⟨h.ascending j r hr, List.pairwise_singleton _ _, ?_⟩
      rintro ⟨route', k⟩ ha b hb
      cases List.mem_singleton.1 hb
      exact Tab.Served.lt h ⟨hr, ha⟩
    · exact h.ascending j r' hr'
  known j r' route' k hk := by
    rcases get?_set hk.1 with ⟨rfl, rfl⟩ | ⟨-, hr'⟩
    · rcases List.mem_append.1 hk.2 with hmem | hmem
      · obtain ⟨body, hbody⟩ := h.known j r route' k ⟨hr, hmem⟩
        exact ⟨body, List.getElem?_append_left
          (List.getElem?_eq_some_iff.1 hbody).1 |>.trans hbody⟩
      · cases List.mem_singleton.1 hmem
        exact ⟨t.world r.days, List.getElem?_concat_length⟩
    · obtain ⟨body, hbody⟩ := h.known j r' route' k ⟨hr', hk.2⟩
      exact ⟨body, List.getElem?_append_left
        (List.getElem?_eq_some_iff.1 hbody).1 |>.trans hbody⟩
  owned k route' body hk := by
    have hlen := (List.getElem?_eq_some_iff.1 hr).1
    rw [List.getElem?_append] at hk
    split at hk
    · obtain ⟨j, r', hr', hmem⟩ := h.owned k route' body hk
      by_cases hij : j = i
      · subst hij
        cases hr.unique hr'
        exact ⟨j, _, List.getElem?_set_self hlen, List.mem_append_left _ hmem⟩
      · exact ⟨j, r', (List.getElem?_set_ne (Ne.symm hij)).trans hr', hmem⟩
    · next hge =>
        obtain ⟨hzero, hpair⟩ : k - t.answers.length = 0 ∧
            (route, t.world r.days) = (route', body) := by
          have := List.getElem?_eq_some_iff.1 hk
          obtain ⟨hlt, hget⟩ := this
          have hz : k - t.answers.length = 0 := Nat.lt_one_iff.1 hlt
          refine ⟨hz, ?_⟩
          simpa only [hz, List.getElem_cons_zero] using hget
        have hlast : k = t.answers.length := by omega
        cases hpair
        subst hlast
        exact ⟨i, _, List.getElem?_set_self hlen,
          List.mem_append_right _ List.mem_cons_self⟩
  whole j r' hr' ha := by
    rcases get?_set hr' with ⟨rfl, rfl⟩ | ⟨-, hr'⟩
    · rw [hopen] at ha
      cases ha
    · exact h.whole j r' hr' ha
  heard x k := by
    refine (h.heard x k).trans ⟨?_, ?_⟩
    · rintro ⟨j, r', hr', ha, hk⟩
      refine ⟨j, r', (List.getElem?_set_ne ?_).trans hr', ha, hk⟩
      rintro rfl
      cases hr.unique hr'
      rw [hopen] at ha
      cases ha
    · rintro ⟨j, r', hr', ha, hk⟩
      rcases get?_set hr' with ⟨rfl, rfl⟩ | ⟨-, hr'⟩
      · rw [hopen] at ha
        cases ha
      · exact ⟨j, r', hr', ha, hk⟩

/-- A read is there, whatever the browser makes of it. -/
theorem TabKept.arrived {t : Tab α} (h : TabKept t) {i : ℕ} {r : Read α}
    (hr : t.Reads i r)
    (hall : ∀ route ∈ r.routes, route ∈ r.served.map Prod.fst)
    (screen : Slice → Option α) (shown : Slice → List ℕ) :
    TabKept
      { t with
        reads := t.reads.set i { r with arrived := true }
        heard := fun x => r.onto x ++ t.heard x
        screen := screen
        shown := shown } where
  ascending j r' hr' := by
    rcases get?_set hr' with ⟨rfl, rfl⟩ | ⟨-, hr'⟩
    · exact h.ascending j r hr
    · exact h.ascending j r' hr'
  known j r' route k hk := by
    rcases get?_set hk.1 with ⟨rfl, rfl⟩ | ⟨-, hr'⟩
    · exact h.known j r route k ⟨hr, hk.2⟩
    · exact h.known j r' route k ⟨hr', hk.2⟩
  owned k route body hk := by
    have hlen := (List.getElem?_eq_some_iff.1 hr).1
    obtain ⟨j, r', hr', hmem⟩ := h.owned k route body hk
    by_cases hij : j = i
    · subst hij
      cases hr.unique hr'
      exact ⟨j, _, List.getElem?_set_self hlen, hmem⟩
    · exact ⟨j, r', (List.getElem?_set_ne (Ne.symm hij)).trans hr', hmem⟩
  whole j r' hr' ha := by
    rcases get?_set hr' with ⟨rfl, rfl⟩ | ⟨-, hr'⟩
    · exact hall
    · exact h.whole j r' hr' ha
  heard x k := by
    have hlen := (List.getElem?_eq_some_iff.1 hr).1
    refine List.mem_append.trans ((or_congr_right (h.heard x k)).trans ⟨?_, ?_⟩)
    · rintro (hk | ⟨j, r', hr', ha, hk⟩)
      · exact ⟨i, _, List.getElem?_set_self hlen, rfl, hk⟩
      · by_cases hij : j = i
        · subst hij
          cases hr.unique hr'
          exact ⟨j, _, List.getElem?_set_self hlen, rfl, hk⟩
        · exact ⟨j, r', (List.getElem?_set_ne (Ne.symm hij)).trans hr', ha, hk⟩
    · rintro ⟨j, r', hr', ha, hk⟩
      rcases get?_set hr' with ⟨rfl, rfl⟩ | ⟨-, hr'⟩
      · exact .inl hk
      · exact .inr ⟨j, r', hr', ha, hk⟩

theorem tabKept_step [DecidableEq α] {t t' : Tab α} {e : Tab.Event α}
    (h : TabKept t) (he : t.step e = some t') : TabKept t' := by
  cases e with
  | write world =>
      cases he
      exact ⟨h.ascending, h.known, h.owned, h.whole, h.heard⟩
  | refetch u changed =>
      cases he
      exact h.sent _ t.kitchenDays
  | loadSnapshot u =>
      cases he
      exact h.sent _ t.kitchenDays
  | loadKitchenReport days =>
      cases he
      exact h.sent _ days
  | serve i route =>
      simp only [Tab.step] at he
      split at he
      · next r hr =>
          split at he
          · next hopen =>
              cases he
              exact h.served hr hopen.1
          · cases he
      · cases he
  | arrive i =>
      simp only [Tab.step] at he
      split at he
      · next r hr =>
          split at he
          · next hall =>
              split at he
              · cases he
                exact h.arrived hr hall.2 t.screen t.shown
              · cases he
                exact h.arrived hr hall.2 _ _
          · cases he
      · cases he

/-! ## Answers in order -/

/-- The answers a read brings come in their turn: no read that is still out has
an earlier answer to a slice this one writes. -/
def ArrivesInTurn (t : Tab α) (i : ℕ) (r : Read α) : Prop :=
  ∀ j r', t.Reads j r' → j ≠ i → r'.arrived = false →
    ∀ x, ∀ k ∈ r.onto x, ∀ k' ∈ r'.onto x, k < k'

/-- Where they are dropped they say what is on screen. -/
def NothingNew [DecidableEq α] (t : Tab α) (r : Read α) : Prop :=
  t.drops r = true → ∀ x, ∀ k ∈ r.onto x, t.screen x = t.put r x

def AnswersInOrder [DecidableEq α] (t : Tab α) : Tab.Event α → Prop
  | .arrive i => ∀ r, t.Reads i r → ArrivesInTurn t i r ∧ NothingNew t r
  | _ => True

/-- What such a run keeps: what has come for a slice came in order, nothing
still out is older than it, and the slice says what the last of it does. -/
structure InTurnKept (t : Tab α) : Prop where
  kept : TabKept t
  descending : ∀ x, (t.heard x).Pairwise fun a b => b < a
  behind : ∀ i r, t.Reads i r → r.arrived = false →
    ∀ x, ∀ k ∈ r.onto x, ∀ k' ∈ t.heard x, k' < k
  shown : ∀ x, (t.shown x).Sublist (t.heard x)
  screen : ∀ x, ∀ k ∈ (t.heard x).head?, t.screen x = t.says x k

theorem Read.onto_descending {r : Read α}
    (h : r.served.Pairwise fun a b => a.2 < b.2) (x : Slice) :
    (r.onto x).Pairwise fun a b => b < a := by
  unfold Read.onto
  rw [List.pairwise_reverse, List.pairwise_map]
  exact h.filter _

theorem inTurnKept_sent {t : Tab α} (h : InTurnKept t)
    (calls : List (List Route)) (days : ℕ) :
    InTurnKept { t with
      kitchenDays := days
      reads := t.reads ++ calls.map { t with kitchenDays := days }.send } where
  kept := h.kept.sent calls days
  descending := h.descending
  behind i r hr ha x k hk := by
    rcases get?_sent hr with hr | ⟨hs, -⟩
    · exact h.behind i r hr ha x k hk
    · obtain ⟨route, hmem, -⟩ := Read.mem_onto.1 hk
      rw [hs] at hmem
      cases hmem
  shown := h.shown
  screen := h.screen

/-- An answer a slice has heard says what it said, whatever is answered next. -/
theorem says_append {t : Tab α} (h : TabKept t) {x : Slice} {k : ℕ}
    (hk : k ∈ t.heard x) (a : Route × (Slice → α)) :
    ((t.answers ++ [a])[k]?.map fun a => a.2 x) = t.says x k := by
  obtain ⟨i, r, hr, -, honto⟩ := (h.heard x k).1 hk
  obtain ⟨route, hmem, -⟩ := Read.mem_onto.1 honto
  rw [List.getElem?_append_left (Tab.Served.lt h ⟨hr, hmem⟩), Tab.says]

/-- What is kept of the answers that have come, once a read's have. -/
theorem InTurnKept.arrived {t : Tab α} (h : InTurnKept t) {i : ℕ} {r : Read α}
    (hr : t.Reads i r) (hopen : r.arrived = false) (hC : ArrivesInTurn t i r)
    (hall : ∀ route ∈ r.routes, route ∈ r.served.map Prod.fst)
    {screen : Slice → Option α} {shown : Slice → List ℕ}
    (hshown : ∀ x, (shown x).Sublist (r.onto x ++ t.heard x))
    (hput : ∀ x, ∀ k ∈ r.onto x, screen x = t.put r x)
    (hrest : ∀ x, r.onto x = [] → screen x = t.screen x) :
    InTurnKept
      { t with
        reads := t.reads.set i { r with arrived := true }
        heard := fun x => r.onto x ++ t.heard x
        screen := screen
        shown := shown } where
  kept := h.kept.arrived hr hall screen shown
  descending x := by
    refine List.pairwise_append.2
      ⟨Read.onto_descending (h.kept.ascending i r hr) x, h.descending x, ?_⟩
    intro k hk k' hk'
    exact h.behind i r hr hopen x k hk k' hk'
  behind j r' hr' ha x k hk k' hk' := by
    rcases get?_set hr' with ⟨rfl, rfl⟩ | ⟨hji, hr'⟩
    · cases ha
    · rcases List.mem_append.1 hk' with hk' | hk'
      · exact hC j r' hr' hji ha x k' hk' k hk
      · exact h.behind j r' hr' ha x k hk k' hk'
  shown := hshown
  screen x k hk := by
    change k ∈ (r.onto x ++ t.heard x).head? at hk
    change screen x = t.says x k
    cases honto : r.onto x with
    | nil =>
        rw [honto, List.nil_append] at hk
        rw [hrest x honto, h.screen x k hk]
    | cons k₀ rest =>
        rw [honto, List.cons_append, List.head?_cons] at hk
        cases hk
        rw [hput x k (honto ▸ List.mem_cons_self), Tab.put, honto, List.head?_cons]

theorem inTurnKept_step [DecidableEq α] {t t' : Tab α} {e : Tab.Event α}
    (h : InTurnKept t) (hC : AnswersInOrder t e)
    (he : t.step e = some t') : InTurnKept t' := by
  have hkept := tabKept_step h.kept he
  cases e with
  | write world =>
      cases he
      exact ⟨hkept, h.descending, h.behind, h.shown, h.screen⟩
  | refetch u changed =>
      cases he
      exact inTurnKept_sent h _ t.kitchenDays
  | loadSnapshot u =>
      cases he
      exact inTurnKept_sent h _ t.kitchenDays
  | loadKitchenReport days =>
      cases he
      exact inTurnKept_sent h _ days
  | serve i route =>
      simp only [Tab.step] at he
      split at he
      case h_2 => cases he
      next r hr =>
      split at he
      case isFalse => cases he
      cases he
      refine ⟨hkept, h.descending, fun j r' hr' ha x k hk k' hk' => ?_, h.shown,
        fun x k hk => ?_⟩
      · rcases get?_set hr' with ⟨rfl, rfl⟩ | ⟨-, hr'⟩
        · obtain ⟨route', hmem, hx⟩ := Read.mem_onto.1 hk
          rcases List.mem_append.1 hmem with hmem | hmem
          · exact h.behind j r hr ha x k (Read.mem_onto.2 ⟨route', hmem, hx⟩) k' hk'
          · -- The answer just given is the latest of all.
            cases List.mem_singleton.1 hmem
            obtain ⟨i, r₁, hr₁, -, hk₁⟩ := (h.kept.heard x k').1 hk'
            obtain ⟨route₁, hmem₁, -⟩ := Read.mem_onto.1 hk₁
            exact Tab.Served.lt h.kept ⟨hr₁, hmem₁⟩
        · exact h.behind j r' hr' ha x k hk k' hk'
      · refine (h.screen x k hk).trans (says_append h.kept ?_ _).symm
        exact List.mem_of_mem_head? hk
  | arrive i =>
      simp only [Tab.step] at he
      split at he
      case h_2 => cases he
      next r hr =>
      split at he
      case isFalse => cases he
      next hopen =>
      obtain ⟨hturn, hnew⟩ := hC r hr
      split at he
      · next hdrops =>
          cases he
          exact h.arrived hr hopen.1 hturn hopen.2
            (fun x => (h.shown x).trans (List.sublist_append_right _ _))
            (hnew hdrops) fun _ _ => rfl
      · cases he
        refine h.arrived hr hopen.1 hturn hopen.2
          (fun x => (h.shown x).append_left _) (fun _ _ _ => rfl) fun x hx => ?_
        rw [Tab.put, hx]
        rfl

theorem inTurnKept_reach [DecidableEq α] {t : Tab α}
    (h : (Tab.machine α).ReachVia AnswersInOrder t) : InTurnKept t := by
  refine h.invariant ?_ ?_
  · rintro ⟨world, answers, reads, screen, days, shown, heard⟩ ⟨ha, hr, hs, hh⟩
    dsimp only at ha hr hs hh
    obtain rfl : shown = fun _ => [] := funext hs
    obtain rfl : heard = fun _ => [] := funext hh
    subst ha hr
    refine ⟨⟨?_, ?_, ?_, ?_, fun x k => ?_⟩, fun _ => .nil, ?_, fun _ => .refl _, ?_⟩
    · rintro i r ⟨⟩
    · rintro i r route k ⟨⟨⟩, -⟩
    · rintro k route body ⟨⟩
    · rintro i r ⟨⟩
    · refine iff_of_false List.not_mem_nil ?_
      rintro ⟨i, r, ⟨⟩, -⟩
    · rintro i r ⟨⟩
    · rintro x k ⟨⟩
  · intro t e t' _ ht hC he
    exact inTurnKept_step ht hC he

/-! ## What is on screen at the end -/

theorem getLast?_filter {β : Type} {p : β → Bool} {l : List β} {k : ℕ} {a : β}
    (hk : l[k]? = some a) (ha : p a = true)
    (hlast : ∀ j b, k < j → l[j]? = some b → p b = false) :
    (l.filter p).getLast? = some a := by
  have hsplit : l = l.take k ++ a :: l.drop (k + 1) := by
    obtain ⟨hlt, hget⟩ := List.getElem?_eq_some_iff.1 hk
    rw [← hget, List.getElem_cons_drop, List.take_append_drop]
  have hrest : (l.drop (k + 1)).filter p = [] := by
    refine List.filter_eq_nil_iff.2 fun b hb => ?_
    obtain ⟨j, hj⟩ := List.mem_iff_getElem?.1 hb
    rw [List.getElem?_drop] at hj
    rw [hlast _ b (by omega) hj]
    exact Bool.false_ne_true
  rw [hsplit, List.filter_append, List.filter_cons_of_pos ha, hrest,
    List.getLast?_append, List.getLast?_singleton, Option.some_or]

theorem InTurnKept.shows_last {t : Tab α} (h : InTurnKept t) (hs : t.Settled)
    {x : Slice} {v : α} (hv : t.servedLast x = some v) : t.screen x = some v := by
  -- Every answer to a read of the slice has come.
  have hall {k : ℕ} {a : Route × (Slice → α)} (hk : t.answers[k]? = some a)
      (hx : x ∈ a.1.sets) : k ∈ t.heard x := by
    obtain ⟨i, r, hr, hmem⟩ := h.kept.owned k a.1 a.2 hk
    refine (h.kept.heard x k).2 ⟨i, r, hr, ?_, Read.mem_onto.2 ⟨a.1, hmem, hx⟩⟩
    exact hs r (List.mem_of_getElem? hr)
  unfold Tab.servedLast at hv
  obtain ⟨a, ha, rfl⟩ := Option.map_eq_some_iff.1 hv
  cases hheard : t.heard x with
  | nil =>
      obtain ⟨hmem, hx⟩ := List.mem_filter.1 (List.mem_of_getLast? ha)
      obtain ⟨k, hk⟩ := List.mem_iff_getElem?.1 hmem
      have hcome := hall hk (of_decide_eq_true hx)
      rw [hheard] at hcome
      cases hcome
  | cons k rest =>
      have hk : k ∈ t.heard x := hheard ▸ List.mem_cons_self
      obtain ⟨i, r, hr, -, honto⟩ := (h.kept.heard x k).1 hk
      obtain ⟨route, hmem, hx⟩ := Read.mem_onto.1 honto
      obtain ⟨body, hbody⟩ := h.kept.known i r route k ⟨hr, hmem⟩
      have hdesc := h.descending x
      rw [hheard, List.pairwise_cons] at hdesc
      have hlast : ∀ j b, k < j → t.answers[j]? = some b →
          decide (x ∈ b.1.sets) = false := by
        intro j b hlt hj
        refine decide_eq_false fun hxb => ?_
        have hmem := hall hj hxb
        rw [hheard] at hmem
        rcases List.mem_cons.1 hmem with rfl | hmem
        · exact Nat.lt_irrefl _ hlt
        · exact Nat.lt_asymm hlt (hdesc.1 j hmem)
      rw [getLast?_filter hbody (decide_eq_true hx) hlast] at ha
      obtain rfl := Option.some.inj ha
      rw [h.screen x k (by rw [hheard]; rfl), Tab.says, hbody, Option.map_some]

/-- In every run in which the answers that share a slice arrive in the order in
which the server produced them, and those the browser drops say what is on
screen, no slice is ever given an answer over a later one, and once every read
has been answered it shows what the server said of it last. -/
theorem late_answer_never_replaces [DecidableEq α] {t : Tab α}
    (h : (Tab.machine α).ReachVia AnswersInOrder t) :
    (∀ x, (t.shown x).Pairwise fun a b => b < a) ∧
      (t.Settled → ∀ x v, t.servedLast x = some v → t.screen x = some v) := by
  have hk := inTurnKept_reach h
  exact ⟨fun x => (hk.descending x).sublist (hk.shown x),
    fun hs _ _ => hk.shows_last hs⟩

def inTurn (t : Tab α) (i : ℕ) (r : Read α) : Bool :=
  t.reads.zipIdx.all fun q => decide (q.2 = i) || q.1.arrived ||
    r.served.all fun a => q.1.served.all fun b =>
      decide (a.2 < b.2) || a.1.sets.all fun x => decide (x ∉ b.1.sets)

def nothingNew [DecidableEq α] (t : Tab α) (r : Read α) : Bool :=
  !t.drops r || r.served.all fun a => a.1.sets.all fun x =>
    decide (t.screen x = t.put r x)

def inOrder [DecidableEq α] (t : Tab α) : Tab.Event α → Bool
  | .arrive i => (t.reads[i]?).all fun r => inTurn t i r && nothingNew t r
  | _ => true

theorem inTurn_sound {t : Tab α} {i : ℕ} {r : Read α} (h : inTurn t i r = true) :
    ArrivesInTurn t i r := by
  intro j r' hr' hji ha x k hk k' hk'
  obtain ⟨route, hmem, hx⟩ := Read.mem_onto.1 hk
  obtain ⟨route', hmem', hx'⟩ := Read.mem_onto.1 hk'
  have hq := List.all_eq_true.1 h (r', j)
    (List.mk_mem_zipIdx_iff_getElem?.2 hr')
  rw [ha, decide_eq_false hji, Bool.false_or, Bool.false_or] at hq
  have hab := List.all_eq_true.1 (List.all_eq_true.1 hq _ hmem) _ hmem'
  rcases Bool.or_eq_true_iff.1 hab with hlt | hsets
  · exact of_decide_eq_true hlt
  · exact absurd hx' (of_decide_eq_true (List.all_eq_true.1 hsets x hx))

theorem nothingNew_sound [DecidableEq α] {t : Tab α} {r : Read α}
    (h : nothingNew t r = true) : NothingNew t r := by
  intro hdrops x k hk
  obtain ⟨route, hmem, hx⟩ := Read.mem_onto.1 hk
  rw [nothingNew, hdrops, Bool.not_true, Bool.false_or] at h
  exact of_decide_eq_true (List.all_eq_true.1 (List.all_eq_true.1 h _ hmem) x hx)

theorem inOrder_sound [DecidableEq α] (t : Tab α) (e : Tab.Event α)
    (h : inOrder t e = true) : AnswersInOrder t e := by
  cases e with
  | arrive i =>
      intro r hr
      change (t.reads[i]?).all _ = true at h
      rw [show t.reads[i]? = some r from hr, Option.all_some,
        Bool.and_eq_true] at h
      exact ⟨inTurn_sound h.1, nothingNew_sound h.2⟩
  | _ => exact trivial

/-! ## Two reads of the bills, and two of who is signed in -/

/-- A cashier who holds nothing. -/
def cashier : Viewer := ⟨false, ⟨fun _ => none, []⟩⟩

/-- Two bills are taken, one after the other, and each is read back. -/
def billsRead : List (Tab.Event ℕ) :=
  [.write fun _ _ => 1, .refetch cashier [.bills], .serve 0 .bills,
   .write fun _ _ => 2, .refetch cashier [.bills], .serve 1 .bills]

def blankTab : Tab ℕ :=
  ⟨fun _ _ => 0, [], [], fun x => if x = .user then some 0 else none, 1,
    fun _ => [], fun _ => []⟩

theorem blankTab_init : (Tab.machine ℕ).init blankTab :=
  ⟨rfl, rfl, fun _ => rfl, fun _ => rfl⟩

theorem late_answer_never_replaces_bills : ∃ t,
    (Tab.machine ℕ).runVia inOrder blankTab
        (billsRead ++ [.arrive 0, .arrive 1]) = some t ∧
      t.screen .bills = some 2 ∧ t.servedLast .bills = some 2 := by
  have hany : ((Tab.machine ℕ).runVia inOrder blankTab
      (billsRead ++ [.arrive 0, .arrive 1])).any (fun t =>
        t.reads.all Read.arrived && decide (t.servedLast .bills = some 2)) =
          true := by
    decide +kernel
  obtain ⟨t, hrun, hd⟩ := (Option.any_eq_true _ _).1 hany
  obtain ⟨hall, hlast⟩ := Bool.and_eq_true_iff.1 hd
  have hreach := Machine.reachVia_runVia inOrder_sound (.init blankTab_init) hrun
  have hsettled : t.Settled := List.all_eq_true.1 hall
  have hlast : t.servedLast .bills = some 2 := of_decide_eq_true hlast
  exact ⟨t, hrun, (late_answer_never_replaces hreach).2 hsettled .bills 2 hlast,
    hlast⟩

/-- A role is changed and changed back, and each time the session asks who it
is. The second answer is what was on screen when the question went out. -/
def rolesRead : List (Tab.Event ℕ) :=
  [.write fun _ _ => 1, .refetch cashier [.roles], .refetch cashier [.roles],
   .serve 0 .me, .arrive 0, .write fun _ _ => 0, .serve 1 .me, .arrive 1]

/-- The second read's answer arrives first, and the first one's replaces it: the
bill that was taken last has gone from the screen, and every read has been
answered. And an answer in its turn is dropped as old where it is news again. -/
theorem late_answer_replaces_bills :
    (∃ t, (Tab.machine ℕ).Reach t ∧ t.Settled ∧
      t.screen .bills = some 1 ∧ t.servedLast .bills = some 2 ∧
      ¬ (t.shown .bills).Pairwise fun a b => b < a) ∧
    ∃ t, (Tab.machine ℕ).Reach t ∧ t.Settled ∧
      t.screen .user = some 1 ∧ t.servedLast .user = some 0 ∧
      (t.heard .user).Pairwise fun a b => b < a := by
  have hbills : ((Tab.machine ℕ).run blankTab
      (billsRead ++ [.arrive 1, .arrive 0])).any (fun t =>
        t.reads.all Read.arrived && decide (t.screen .bills = some 1 ∧
          t.servedLast .bills = some 2 ∧
          ¬ (t.shown .bills).Pairwise fun a b => b < a)) = true := by
    decide +kernel
  have hroles : ((Tab.machine ℕ).run blankTab rolesRead).any (fun t =>
        t.reads.all Read.arrived && decide (t.screen .user = some 1 ∧
          t.servedLast .user = some 0 ∧
          (t.heard .user).Pairwise fun a b => b < a)) = true := by
    decide +kernel
  obtain ⟨t, hrun, hd⟩ := (Option.any_eq_true _ _).1 hbills
  obtain ⟨t', hrun', hd'⟩ := (Option.any_eq_true _ _).1 hroles
  obtain ⟨hall, hd⟩ := Bool.and_eq_true_iff.1 hd
  obtain ⟨hall', hd'⟩ := Bool.and_eq_true_iff.1 hd'
  exact ⟨⟨t, Machine.reach_run (.init blankTab_init) hrun,
    List.all_eq_true.1 hall, of_decide_eq_true hd⟩,
    t', Machine.reach_run (.init blankTab_init) hrun',
    List.all_eq_true.1 hall', of_decide_eq_true hd'⟩

end Rch
