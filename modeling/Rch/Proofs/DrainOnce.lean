import Rch.Machine.Outbox

/-!
# Every outbox row is in one place

A pass holds every row it has taken, so no other pass has it too. What it took
it sorts in two, and each half goes where it belongs in the commit that takes
the rows out of the outbox. The id of a row still in the outbox is not in the
log yet, so the index of outbox ids never refuses one: what is set aside was
refused by the schema, or for its own values.
-/

namespace Rch

open Kit

/-! ## Where a row is -/

def deadFor (s : AuditStore) (id : ℕ) : List DeadLetter :=
  s.deadLetters.filter fun d => decide (d.outboxId = id)

/-- What a dead letter may say: what the schema said of the event, or what
Postgres said of its values. -/
def RefusedWhy (env : DrainEnv) (row : OutboxRow) (issue : String) : Prop :=
  (∃ i, parseAuditEvent env row.event = .error i ∧ issue = firstIssue i) ∨
    ∃ event why, parseAuditEvent env row.event = .ok event ∧
      env.refuses event = some why ∧ issue = refusedByDatabase why

/-- The one place an outbox row is in. -/
inductive Whereabouts (env : DrainEnv) (s : AuditStore) (id : ℕ)
    (row : OutboxRow) : Prop
  | waiting (here : s.outbox.get? id = some row)
      (unlogged : s.events.get? id = none) (alive : deadFor s id = [])
  | logged (event : AuditEvent) (gone : s.outbox.get? id = none)
      (takes : parseAuditEvent env row.event = .ok event)
      (there : s.events.get? id = some (eventRow event))
      (alive : deadFor s id = [])
  | setAside (d : DeadLetter) (gone : s.outbox.get? id = none)
      (unlogged : s.events.get? id = none) (there : deadFor s id = [d])
      (whole : d.at_ = row.at_ ∧ d.event = row.event)
      (why : RefusedWhy env row d.issue)

/-- Every row ever committed is in one place, and nothing else is anywhere. -/
structure TrailWhole (env : DrainEnv) (s : AuditStore) : Prop where
  stored : s.stored.All fun id row => Whereabouts env s id row
  nothing : ∀ id, s.stored.get? id = none →
    s.outbox.get? id = none ∧ s.events.get? id = none ∧ deadFor s id = []

theorem trailWhole_empty (env : DrainEnv) :
    TrailWhole env ⟨.empty, .empty, [], .empty⟩ :=
  ⟨Table.all_empty _, fun _ _ => ⟨rfl, rfl, rfl⟩⟩

theorem TrailWhole.waiting {env : DrainEnv} {s : AuditStore}
    (h : TrailWhole env s) {id : ℕ} {row : OutboxRow}
    (hr : s.outbox.get? id = some row) :
    s.stored.get? id = some row ∧ s.events.get? id = none ∧
      deadFor s id = [] := by
  cases hs : s.stored.get? id with
  | none =>
      rw [(h.nothing id hs).1] at hr
      cases hr
  | some row' =>
      cases h.stored id row' hs with
      | waiting here unlogged alive =>
          rw [here] at hr
          exact ⟨hr, unlogged, alive⟩
      | logged _ gone =>
          rw [gone] at hr
          cases hr
      | setAside _ gone =>
          rw [gone] at hr
          cases hr

/-! ## What a pass has in hand -/

/-- The rows a pass has taken: locked, and still in the outbox of everybody
else. -/
structure HeldRows (s : AuditStore) (held : List (Lock AuditKey))
    (taken : List TakenRow) : Prop where
  nodup : (taken.map TakenRow.id).Nodup
  here : ∀ r ∈ taken, ⟨.row r.id, .update⟩ ∈ held ∧
    s.outbox.get? r.id = some r.row

/-- What was taken, in its two halves. -/
structure Halves (env : DrainEnv) (taken : List TakenRow)
    (valid : List Parsed) (refused : List SetAside) : Prop where
  perm : (valid.map Parsed.row ++ refused.map SetAside.row).Perm taken
  takes : ∀ p ∈ valid, parseAuditEvent env p.row.row.event = .ok p.event
  why : ∀ r ∈ refused, RefusedWhy env r.row.row r.issue

theorem halves_taken (env : DrainEnv) (taken : List TakenRow) :
    Halves env taken (validOf env taken) (refusedOf env taken) := by
  induction taken with
  | nil => exact ⟨.nil, nofun, nofun⟩
  | cons r taken ih =>
      unfold validOf refusedOf at ih ⊢
      rw [List.filterMap_cons, List.filterMap_cons]
      cases hp : parseAuditEvent env r.row.event with
      | ok event =>
          refine ⟨.cons r ih.perm, ?_, ih.why⟩
          rintro p (_ | ⟨_, hp'⟩)
          · exact hp
          · exact ih.takes p hp'
      | error i =>
          refine ⟨List.perm_middle.trans (.cons r ih.perm), ih.takes, ?_⟩
          rintro x (_ | ⟨_, hx⟩)
          · exact .inl ⟨i, hp, rfl⟩
          · exact ih.why x hx

section Halves

variable {env : DrainEnv} {taken : List TakenRow} {valid todo : List Parsed}
variable {refused : List SetAside} {p : Parsed}

theorem Halves.mem_valid (h : Halves env taken valid refused)
    (hp : p ∈ valid) : p.row ∈ taken :=
  h.perm.mem_iff.1 (List.mem_append_left _ (List.mem_map_of_mem hp))

theorem Halves.mem_refused (h : Halves env taken valid refused) {r : SetAside}
    (hr : r ∈ refused) : r.row ∈ taken :=
  h.perm.mem_iff.1 (List.mem_append_right _ (List.mem_map_of_mem hr))

theorem Halves.nodup (h : Halves env taken valid refused)
    (hn : (taken.map TakenRow.id).Nodup) :
    (valid.map fun p => p.row.id).Nodup ∧
      (refused.map fun r => r.row.id).Nodup ∧
      ∀ p ∈ valid, ∀ r ∈ refused, p.row.id ≠ r.row.id := by
  have hall := (h.perm.map TakenRow.id).nodup_iff.2 hn
  rw [List.map_append, List.map_map, List.map_map, List.nodup_append] at hall
  obtain ⟨hv, hr, hd⟩ := hall
  exact ⟨hv, hr, fun p hp r hr' =>
    hd _ (List.mem_map_of_mem hp) _ (List.mem_map_of_mem hr')⟩

theorem Halves.refuse {kept : List Parsed}
    (h : Halves env taken (kept ++ p :: todo) refused) {issue : String}
    (hw : RefusedWhy env p.row.row issue) :
    Halves env taken (kept ++ todo) (refused ++ [⟨p.row, issue⟩]) := by
  refine ⟨.trans ?_ h.perm, fun q hq => h.takes q ?_, fun r hr => ?_⟩
  · simp only [List.map_append, List.map_cons, List.map_nil]
    rw [← List.append_assoc]
    refine (List.perm_append_singleton _ _).trans ?_
    simp only [List.append_assoc, List.cons_append]
    exact List.perm_middle.symm
  · rcases List.mem_append.1 hq with hq | hq
    · exact List.mem_append_left _ hq
    · exact List.mem_append_right _ (List.mem_cons_of_mem _ hq)
  · rcases List.mem_append.1 hr with hr | hr
    · exact h.why r hr
    · obtain rfl := List.mem_singleton.1 hr
      exact hw

end Halves

/-! ## Reading what was written -/

def insertRows (rows : List (ℕ × OutboxRow)) (s : AuditStore) : AuditStore :=
  { s with
    outbox := s.outbox.insertAll rows
    stored := s.stored.insertAll rows }

theorem get?_takeRows (taken : List TakenRow) (s : AuditStore) (id : ℕ) :
    (takeRows taken s).outbox.get? id =
      if id ∈ taken.map TakenRow.id then none else s.outbox.get? id := by
  change (s.outbox.restrict _).get? id = _
  rw [Table.get?_restrict]
  by_cases h : id ∈ taken.map TakenRow.id
  · rw [if_pos h, decide_eq_false (not_not_intro h)]
    rfl
  · rw [if_neg h, decide_eq_true h]
    rfl

theorem get?_storeEvents {list : List Parsed} {s : AuditStore}
    (hn : (list.map fun p => p.row.id).Nodup)
    (hfree : ∀ p ∈ list, s.events.get? p.row.id = none) (id : ℕ) :
    (storeEvents list s).events.get? id =
      ((list.map fun p => (p.row.id, eventRow p.event)).lookup id).or
        (s.events.get? id) := by
  apply Table.get?_insertAll
  · rwa [List.map_map]
  · intro r hr
    obtain ⟨p, hp, rfl⟩ := List.mem_map.1 hr
    exact hfree p hp

theorem deadFor_storeDeadLetters (refused : List SetAside) (s : AuditStore)
    (id : ℕ) : deadFor (storeDeadLetters refused s) id =
      deadFor s id ++ ((refused.insertionSort fun a b =>
        a.row.id ≤ b.row.id).filter fun r =>
          decide (r.row.id = id)).map deadLetterRow := by
  unfold deadFor storeDeadLetters insertDeadLetters
  rw [List.filter_append, List.filter_map]
  rfl

theorem filter_eq_singleton {α β : Type} [DecidableEq β] {l : List α}
    {f : α → β} (hn : (l.map f).Nodup) {a : α} (ha : a ∈ l) :
    l.filter (fun x => decide (f x = f a)) = [a] := by
  induction l with
  | nil => cases ha
  | cons b l ih =>
      rw [List.map_cons, List.nodup_cons] at hn
      rcases List.mem_cons.1 ha with rfl | ha
      · rw [List.filter_cons_of_pos (by simp), List.filter_eq_nil_iff.2]
        intro x hx h
        exact hn.1 (of_decide_eq_true h ▸ List.mem_map_of_mem hx)
      · rw [List.filter_cons_of_neg, ih hn.2 ha]
        intro h
        exact hn.1 (of_decide_eq_true h ▸ List.mem_map_of_mem ha)

/-! ## Where each transaction stands -/

/-- Rows a write has stored under ids nobody had. -/
structure NewRows (s : AuditStore) (held : List (Lock AuditKey))
    (rows : List (ℕ × OutboxRow)) : Prop where
  nodup : (rows.map Prod.fst).Nodup
  fresh : ∀ r ∈ rows, ⟨.row r.1, .update⟩ ∈ held ∧ s.stored.get? r.1 = none

/-- A pass with these rows in hand, sorted so far, that has written this. -/
def Passing (env : DrainEnv) (s : AuditStore) (x : Tx AuditStore AuditKey AuditTx)
    (valid : List Parsed) (refused : List SetAside)
    (write : List TakenRow → AuditStore → AuditStore) : Prop :=
  ∃ taken, HeldRows s x.held taken ∧ Halves env taken valid refused ∧
    x.write = write taken

def AuditShaped (env : DrainEnv) (s : AuditStore)
    (x : Tx AuditStore AuditKey AuditTx) : Prop :=
  match x.at_ with
  | .write => ∃ rows, NewRows s x.held rows ∧ x.write = insertRows rows
  | .pass .begun => x.write = fun s => s
  | .pass (.taken valid refused) => Passing env s x valid refused takeRows
  | .pass (.oneByOne todo kept refused) =>
    Passing env s x (kept ++ todo) refused fun taken s =>
      storeEvents kept (takeRows taken s)
  | .pass (.inserted kept refused) =>
    Passing env s x kept refused fun taken s =>
      storeEvents kept (takeRows taken s)
  | .pass (.setAside kept refused) =>
    Passing env s x kept refused fun taken s =>
      storeDeadLetters refused (storeEvents kept (takeRows taken s))

theorem auditShaped_begins {env : DrainEnv} {s : AuditStore} {t : AuditTx}
    (h : t.starts = true) : AuditShaped env s (.fresh t) := by
  cases t with
  | write => exact ⟨[], ⟨List.nodup_nil, nofun⟩, rfl⟩
  | pass p =>
      cases p with
      | begun => exact rfl
      | _ => cases h

theorem storeEvents_append (list list' : List Parsed) (s : AuditStore) :
    storeEvents (list ++ list') s = storeEvents list' (storeEvents list s) := by
  unfold storeEvents insertEvents
  rw [List.map_append, Table.insertAll_append]

theorem insertRows_append (rows : List (ℕ × OutboxRow)) (id : ℕ)
    (row : OutboxRow) (s : AuditStore) :
    insertRows (rows ++ [(id, row)]) s =
      insertOutbox id row (insertRows rows s) := by
  unfold insertRows
  rw [Table.insertAll_append, Table.insertAll_append]
  rfl

theorem storeDeadLetters_nil (s : AuditStore) : storeDeadLetters [] s = s := by
  unfold storeDeadLetters insertDeadLetters
  rw [List.insertionSort_nil, List.map_nil, List.append_nil]

section Runs

variable {env : DrainEnv} {c : AuditChoice} {s : AuditStore}
variable {held : List (Lock AuditKey)} {write : AuditStore → AuditStore}
variable {st : AuditStmt}

theorem mem_oldest {r : TakenRow} (h : r ∈ oldest env c s) :
    s.outbox.get? r.id = some r.row := by
  have h := (List.mem_insertionSort _).1 (List.mem_of_mem_take h)
  obtain ⟨x, hx, rfl⟩ := List.mem_map.1 (List.mem_filter.1 h).1
  exact Table.get?_eq_some.2 hx

theorem nodup_oldest (env : DrainEnv) (c : AuditChoice) (s : AuditStore) :
    ((oldest env c s).map TakenRow.id).Nodup := by
  refine List.Nodup.sublist ((List.take_sublist _ _).map _) ?_
  rw [((List.perm_insertionSort _ _).map TakenRow.id).nodup_iff]
  refine List.Nodup.sublist (List.filter_sublist.map _) ?_
  rw [List.map_map]
  exact s.outbox.keys_nodup

theorem AuditShaped.write_runs
    (hx : AuditShaped env s ⟨.write, held, write⟩)
    (hs : writeStmt c (write s) = some st) :
    AuditShaped env s (Tx.after ⟨.write, held, write⟩ st) := by
  obtain ⟨rows, ⟨hn, hfresh⟩, rfl⟩ := hx
  unfold writeStmt at hs
  split at hs
  · next hfree =>
      cases hs
      rw [Option.isNone_iff_eq_none] at hfree
      change (s.stored.insertAll rows).get? c.id = none at hfree
      rw [Table.get?_insertAll hn fun r hr => (hfresh r hr).2,
        Option.or_eq_none_iff, Table.lookup_eq_none] at hfree
      refine ⟨rows ++ [(c.id, c.row)], ⟨?_, fun r hr => ?_⟩, ?_⟩
      · rw [List.map_append, List.nodup_append]
        refine ⟨hn, List.nodup_singleton _, fun k hk k' hk' => ?_⟩
        obtain rfl := List.mem_singleton.1 hk'
        rintro rfl
        exact hfree.1 hk
      · rcases List.mem_append.1 hr with hr | hr
        · exact ⟨List.mem_cons_of_mem _ (hfresh r hr).1, (hfresh r hr).2⟩
        · obtain rfl := List.mem_singleton.1 hr
          exact ⟨List.mem_cons_self, hfree.2⟩
      · funext s
        exact (insertRows_append rows c.id c.row s).symm
  · cases hs

/-- Only its own values keep the next row out of the log. -/
theorem Passing.refuses (hi : TrailWhole env s) {taken : List TakenRow}
    (hheld : HeldRows s held taken) {p : Parsed} {todo kept : List Parsed}
    {refused : List SetAside} (hh : Halves env taken (kept ++ p :: todo) refused)
    {why : String}
    (hw : rowRefusal env (storeEvents kept (takeRows taken s)).events p =
      some why) : env.refuses p.event = some why := by
  have hn := (hh.nodup hheld.nodup).1
  have hunlogged : ∀ q ∈ kept ++ p :: todo, s.events.get? q.row.id = none :=
    fun q hq => (hi.waiting (hheld.here _ (hh.mem_valid hq)).2).2.1
  rw [List.map_append, List.nodup_append] at hn
  obtain ⟨hnk, -, hd⟩ := hn
  have hget : (storeEvents kept (takeRows taken s)).events.get? p.row.id =
      none := by
    rw [get?_storeEvents (s := takeRows taken s) hnk fun q hq =>
      hunlogged q (List.mem_append_left _ hq), Option.or_eq_none_iff, Table.lookup_eq_none, List.map_map]
    refine ⟨fun hmem => ?_, hunlogged p (by simp)⟩
    exact hd _ hmem _ (by simp) rfl
  unfold rowRefusal at hw
  rw [hget] at hw
  simpa using hw

theorem AuditShaped.pass_runs (hi : TrailWhole env s) {p : PassAt}
    (hx : AuditShaped env s ⟨.pass p, held, write⟩)
    (hs : passStmt env c (write s) p = some st) :
    AuditShaped env s (Tx.after ⟨.pass p, held, write⟩ st) := by
  cases p with
  | begun =>
      obtain rfl := hx
      cases hs
      refine ⟨oldest env c s, ⟨nodup_oldest env c s, fun r hr => ⟨?_, ?_⟩⟩,
        halves_taken env _, rfl⟩
      · exact List.mem_append_left _ (List.mem_map_of_mem hr)
      · exact mem_oldest hr
  | taken valid refused =>
      obtain ⟨taken, ⟨hn, hhere⟩, hh, rfl⟩ := hx
      simp only [passStmt] at hs
      split at hs
      · next hempty =>
          cases hs
          rw [List.isEmpty_iff] at hempty
          subst hempty
          exact ⟨taken, ⟨hn, hhere⟩, hh, rfl⟩
      · split at hs <;> cases hs
        · exact ⟨taken, ⟨hn, fun r hr =>
            ⟨List.mem_append_right _ (hhere r hr).1, (hhere r hr).2⟩⟩, hh, rfl⟩
        · exact ⟨taken, ⟨hn, hhere⟩, hh, rfl⟩
  | oneByOne todo kept refused =>
      obtain ⟨taken, hheld, hh, rfl⟩ := hx
      cases todo with
      | nil =>
          cases hs
          rw [List.append_nil] at hh
          exact ⟨taken, hheld, hh, rfl⟩
      | cons p todo =>
          simp only [passStmt] at hs
          split at hs
          · cases hs
            refine ⟨taken, ⟨hheld.nodup, fun r hr => ?_⟩, ?_, ?_⟩
            · obtain ⟨hkey, hget⟩ := hheld.here r hr
              exact ⟨List.mem_cons_of_mem _ hkey, hget⟩
            · rwa [List.append_assoc]
            · funext s
              exact (storeEvents_append kept [p] _).symm
          · next why hwhy =>
              cases hs
              refine ⟨taken, hheld, hh.refuse ?_, rfl⟩
              exact .inr ⟨p.event, why, hh.takes p (by simp),
                Passing.refuses hi hheld hh hwhy, rfl⟩
  | inserted kept refused =>
      obtain ⟨taken, hheld, hh, rfl⟩ := hx
      simp only [passStmt] at hs
      split at hs
      · next hempty =>
          cases hs
          rw [List.isEmpty_iff] at hempty
          subst hempty
          refine ⟨taken, hheld, hh, ?_⟩
          funext s
          exact (storeDeadLetters_nil _).symm
      · cases hs
        exact ⟨taken, hheld, hh, rfl⟩
  | setAside kept refused => cases hs

end Runs

/-! ## What a commit does -/

inductive AuditCommit (env : DrainEnv) (s : AuditStore)
    (held : List (Lock AuditKey)) : AuditStore → Prop
  | wrote (rows : List (ℕ × OutboxRow)) (new : NewRows s held rows) :
      AuditCommit env s held (insertRows rows s)
  | drained (taken : List TakenRow) (kept : List Parsed)
      (refused : List SetAside) (rows : HeldRows s held taken)
      (halves : Halves env taken kept refused) :
      AuditCommit env s held
        (storeDeadLetters refused (storeEvents kept (takeRows taken s)))

theorem AuditShaped.commit {env : DrainEnv} {s : AuditStore}
    {x : Tx AuditStore AuditKey AuditTx} (hx : AuditShaped env s x)
    (hd : x.at_.done = true) : AuditCommit env s x.held (x.write s) := by
  obtain ⟨t, held, write⟩ := x
  cases t with
  | write =>
      obtain ⟨rows, hnew, rfl⟩ := hx
      exact .wrote rows hnew
  | pass p =>
      cases p with
      | setAside kept refused =>
          obtain ⟨taken, hheld, hh, rfl⟩ := hx
          exact .drained taken kept refused hheld hh
      | _ => cases hd

section Commit

variable {env : DrainEnv} {s s' : AuditStore} {held held' : List (Lock AuditKey)}

theorem TrailWhole.wrote (hi : TrailWhole env s) {rows : List (ℕ × OutboxRow)}
    (hnew : NewRows s held rows) : TrailWhole env (insertRows rows s) := by
  have hstored (id : ℕ) : (insertRows rows s).stored.get? id =
      (rows.lookup id).or (s.stored.get? id) :=
    Table.get?_insertAll hnew.nodup (fun r hr => (hnew.fresh r hr).2) id
  have houtbox (id : ℕ) : (insertRows rows s).outbox.get? id =
      (rows.lookup id).or (s.outbox.get? id) :=
    Table.get?_insertAll hnew.nodup
      (fun r hr => (hi.nothing r.1 (hnew.fresh r hr).2).1) id
  refine ⟨fun id row hrow => ?_, fun id hnone => ?_⟩
  · rw [hstored] at hrow
    cases hl : rows.lookup id with
    | some row' =>
        rw [hl] at hrow
        cases hrow
        obtain ⟨-, hunlogged, halive⟩ :=
          hi.nothing id (hnew.fresh (id, row) (Table.lookup_mem hl)).2
        exact .waiting (by rw [houtbox, hl]; rfl) hunlogged halive
    | none =>
        rw [hl] at hrow
        have hsame : (insertRows rows s).outbox.get? id = s.outbox.get? id := by
          rw [houtbox, hl]
          rfl
        cases hi.stored id row hrow with
        | waiting here unlogged alive =>
            exact .waiting (hsame.trans here) unlogged alive
        | logged event gone takes there alive =>
            exact .logged event (hsame.trans gone) takes there alive
        | setAside d gone unlogged there whole why =>
            exact .setAside d (hsame.trans gone) unlogged there whole why
  · rw [hstored, Option.or_eq_none_iff] at hnone
    obtain ⟨hout, hunlogged, halive⟩ := hi.nothing id hnone.2
    exact ⟨by rw [houtbox, hnone.1, hout]; rfl, hunlogged, halive⟩

/-- Where a row taken went: one half or the other. -/
theorem Halves.cases {taken : List TakenRow} {kept : List Parsed}
    {refused : List SetAside} (hh : Halves env taken kept refused)
    {id : ℕ} (hid : id ∈ taken.map TakenRow.id) :
    (∃ p ∈ kept, p.row.id = id) ∨ ∃ r ∈ refused, r.row.id = id := by
  obtain ⟨t, ht, rfl⟩ := List.mem_map.1 hid
  rcases List.mem_append.1 (hh.perm.mem_iff.2 ht) with h | h
  · obtain ⟨p, hp, rfl⟩ := List.mem_map.1 h
    exact .inl ⟨p, hp, rfl⟩
  · obtain ⟨r, hr, rfl⟩ := List.mem_map.1 h
    exact .inr ⟨r, hr, rfl⟩

theorem TrailWhole.drained (hi : TrailWhole env s) {taken : List TakenRow}
    {kept : List Parsed} {refused : List SetAside}
    (hheld : HeldRows s held taken) (hh : Halves env taken kept refused) :
    TrailWhole env
      (storeDeadLetters refused (storeEvents kept (takeRows taken s))) := by
  obtain ⟨hnk, hnr, hapart⟩ := hh.nodup hheld.nodup
  have hwaiting {r : TakenRow} (hr : r ∈ taken) := hi.waiting (hheld.here r hr).2
  -- what the log, the outbox and the dead letters say now of an id
  have hevents (id : ℕ) : (storeEvents kept (takeRows taken s)).events.get? id =
      ((kept.map fun p => (p.row.id, eventRow p.event)).lookup id).or
        (s.events.get? id) :=
    get?_storeEvents (s := takeRows taken s) hnk
      (fun p hp => (hwaiting (hh.mem_valid hp)).2.1) id
  have houtbox := get?_takeRows taken s
  have hdead (id : ℕ) := deadFor_storeDeadLetters refused
    (storeEvents kept (takeRows taken s)) id
  have hsorted := List.perm_insertionSort (fun a b : SetAside =>
    a.row.id ≤ b.row.id) refused
  have hunkept {id : ℕ} (h : ∀ p ∈ kept, p.row.id ≠ id) :
      (kept.map fun p => (p.row.id, eventRow p.event)).lookup id = none := by
    rw [Table.lookup_eq_none, List.map_map]
    rintro hmem
    obtain ⟨p, hp, hpid⟩ := List.mem_map.1 hmem
    exact h p hp hpid
  have hunrefused {id : ℕ} (h : ∀ r ∈ refused, r.row.id ≠ id) :
      deadFor (storeDeadLetters refused
        (storeEvents kept (takeRows taken s))) id = deadFor s id := by
    rw [hdead, List.filter_eq_nil_iff.2 fun r hr =>
      by simpa using h r (hsorted.mem_iff.1 hr), List.map_nil, List.append_nil]
    rfl
  -- an id this pass does not have is where it was
  have hother {id : ℕ} (hid : id ∉ taken.map TakenRow.id) :
      (∀ p ∈ kept, p.row.id ≠ id) ∧ ∀ r ∈ refused, r.row.id ≠ id :=
    ⟨fun p hp h => hid (h ▸ List.mem_map_of_mem (hh.mem_valid hp)),
      fun r hr h => hid (h ▸ List.mem_map_of_mem (hh.mem_refused hr))⟩
  refine ⟨fun id row hrow => ?_, fun id hnone => ?_⟩
  · change s.stored.get? id = some row at hrow
    by_cases hid : id ∈ taken.map TakenRow.id
    · have hgone := (houtbox id).trans (if_pos hid)
      rcases hh.cases hid with ⟨p, hp, rfl⟩ | ⟨r, hr, rfl⟩
      · obtain ⟨hst, -, halive⟩ := hwaiting (hh.mem_valid hp)
        obtain rfl := Option.some.inj (hrow.symm.trans hst)
        refine .logged p.event hgone (hh.takes p hp) ?_
          ((hunrefused fun r hr => (hapart p hp r hr).symm).trans halive)
        refine (hevents _).trans ?_
        rw [Table.mem_lookup (by rwa [List.map_map])
          (List.mem_map_of_mem (f := fun p : Parsed =>
            (p.row.id, eventRow p.event)) hp)]
        rfl
      · obtain ⟨hst, hunlogged, halive⟩ := hwaiting (hh.mem_refused hr)
        obtain rfl := Option.some.inj (hrow.symm.trans hst)
        refine .setAside (deadLetterRow r) hgone ?_ ?_ ⟨rfl, rfl⟩ (hh.why r hr)
        · refine (hevents _).trans ?_
          rw [hunkept fun p hp => hapart p hp r hr, hunlogged]
          rfl
        · have hone := filter_eq_singleton
            (((hsorted.map fun r => r.row.id).nodup_iff).2 hnr)
            (hsorted.mem_iff.2 hr)
          rw [hdead, hone]
          change deadFor s r.row.id ++ _ = _
          rw [halive]
          rfl
    · obtain ⟨hk, hr⟩ := hother hid
      have hout := (houtbox id).trans (if_neg hid)
      have hev := (hevents id).trans (by rw [hunkept hk, Option.none_or])
      have hdd := hunrefused hr
      cases hi.stored id row hrow with
      | waiting here unlogged alive =>
          exact .waiting (hout.trans here) (hev.trans unlogged)
            (hdd.trans alive)
      | logged event gone takes there alive =>
          exact .logged event (hout.trans gone) takes (hev.trans there)
            (hdd.trans alive)
      | setAside d gone unlogged there whole why =>
          exact .setAside d (hout.trans gone) (hev.trans unlogged)
            (hdd.trans there) whole why
  · change s.stored.get? id = none at hnone
    obtain ⟨hout, hunlogged, halive⟩ := hi.nothing id hnone
    have hid : id ∉ taken.map TakenRow.id := by
      intro hid
      obtain ⟨t, ht, rfl⟩ := List.mem_map.1 hid
      rw [(hwaiting ht).1] at hnone
      cases hnone
    obtain ⟨hk, hr⟩ := hother hid
    refine ⟨((houtbox id).trans (if_neg hid)).trans hout, ?_,
      (hunrefused hr).trans halive⟩
    refine (hevents id).trans ?_
    rw [hunkept hk, hunlogged]
    rfl

theorem TrailWhole.commit (hi : TrailWhole env s)
    (h : AuditCommit env s held s') : TrailWhole env s' := by
  cases h with
  | wrote rows new => exact hi.wrote new
  | drained taken kept refused rows halves => exact hi.drained rows halves

variable (hclash : clash held held' = false)

include hclash

/-- A row somebody holds is still in the outbox after another's commit. -/
theorem HeldRows.commit (hi : TrailWhole env s) (h : AuditCommit env s held s')
    {taken : List TakenRow} (hheld : HeldRows s held' taken) :
    HeldRows s' held' taken := by
  refine ⟨hheld.nodup, fun r hr => ⟨(hheld.here r hr).1, ?_⟩⟩
  obtain ⟨hkey, hget⟩ := hheld.here r hr
  cases h with
  | wrote rows new =>
      have hnot : rows.lookup r.id = none := by
        rw [Table.lookup_eq_none]
        intro hmem
        obtain ⟨x, hx, hxid⟩ := List.mem_map.1 hmem
        have hkey' := (new.fresh x hx).1
        rw [hxid] at hkey'
        rw [clash_of_mem hkey' hkey rfl] at hclash
        cases hclash
      refine (Table.get?_insertAll new.nodup (fun x hx =>
        (hi.nothing x.1 (new.fresh x hx).2).1) r.id).trans ?_
      rw [hnot, hget]
      rfl
  | drained taken' kept refused rows halves =>
      have hnot : r.id ∉ taken'.map TakenRow.id := by
        intro hmem
        obtain ⟨t, ht, htid⟩ := List.mem_map.1 hmem
        have hkey' := (rows.here t ht).1
        rw [htid] at hkey'
        rw [clash_of_mem hkey' hkey rfl] at hclash
        cases hclash
      exact ((get?_takeRows taken' s r.id).trans (if_neg hnot)).trans hget

theorem NewRows.commit (h : AuditCommit env s held s')
    {rows : List (ℕ × OutboxRow)} (hnew : NewRows s held' rows) :
    NewRows s' held' rows := by
  refine ⟨hnew.nodup, fun r hr => ⟨(hnew.fresh r hr).1, ?_⟩⟩
  obtain ⟨hkey, hfree⟩ := hnew.fresh r hr
  cases h with
  | wrote rows' new =>
      have hnot : rows'.lookup r.1 = none := by
        rw [Table.lookup_eq_none]
        intro hmem
        obtain ⟨x, hx, hxid⟩ := List.mem_map.1 hmem
        have hkey' := (new.fresh x hx).1
        rw [hxid] at hkey'
        rw [clash_of_mem hkey' hkey rfl] at hclash
        cases hclash
      refine (Table.get?_insertAll new.nodup
        (fun x hx => (new.fresh x hx).2) r.1).trans ?_
      rw [hnot, hfree]
      rfl
  | drained => exact hfree

end Commit

theorem AuditShaped.stable {env : DrainEnv} {s s' : AuditStore}
    {held : List (Lock AuditKey)} (hi : TrailWhole env s)
    {y : Tx AuditStore AuditKey AuditTx} (hy : AuditShaped env s y)
    (h : AuditCommit env s held s') (hclash : clash held y.held = false) :
    AuditShaped env s' y := by
  obtain ⟨t, held', write⟩ := y
  have hpass {valid : List Parsed} {refused : List SetAside}
      {w : List TakenRow → AuditStore → AuditStore}
      (hp : Passing env s ⟨t, held', write⟩ valid refused w) :
      Passing env s' ⟨t, held', write⟩ valid refused w := by
    obtain ⟨taken, hheld, hrest⟩ := hp
    exact ⟨taken, hheld.commit hclash hi h, hrest⟩
  cases t with
  | write =>
      obtain ⟨rows, hnew, hw⟩ := hy
      exact ⟨rows, hnew.commit hclash h, hw⟩
  | pass p =>
      cases p with
      | begun => exact hy
      | taken valid refused => exact hpass hy
      | oneByOne todo kept refused => exact hpass hy
      | inserted kept refused => exact hpass hy
      | setAside kept refused => exact hpass hy

/-! ## Over whole runs -/

theorem trail_kept (env : DrainEnv) :
    (auditTrail env).Kept (fun _ _ => True) (TrailWhole env)
      (AuditShaped env) where
  init s hs := by
    obtain rfl := hs
    exact trailWhole_empty env
  begins s t _ ht := auditShaped_begins ht
  runs _ _ x c st _ _ hi hx hs := by
    obtain ⟨t, held, write⟩ := x
    cases t with
    | write => exact hx.write_runs hs
    | pass p => exact hx.pass_runs hi hs
  commits w i x _ _ hi hx hd := hi.commit (hx.commit hd)
  stable w i j x y _ _ _ _ hi hox hoy hd hc := hoy.stable hi (hox.commit hd) hc

/-- Whatever passes run, and wherever they are cut off: every outbox row ever
committed is in exactly one of the outbox, the log and the dead letters, once;
in the log only if the schema takes its event; and among the dead letters only
if the schema refuses it, or Postgres refuses its values. -/
theorem drain_keeps_every_event {env : DrainEnv}
    {w : World AuditStore AuditKey AuditTx}
    (h : (auditTrail env).machine.Reach w) : TrailWhole env w.committed :=
  ((trail_kept env).safe h).inv

/-! ## An event only Postgres refuses -/

def smallints : DrainEnv where
  isoDatetime _ := true
  wording _ _ := "Invalid input"
  refuses e :=
    if -32768 ≤ e.status ∧ e.status ≤ 32767 then none
    else some "smallint out of range"
  batch := 2

def sampleEvent (status : ℚ) : Json :=
  .obj [("at", .str "2026-01-01T00:00:00.000Z"), ("requestId", .str "r1"),
    ("actor", .obj [("id", .null), ("emp", .str ""), ("name", .str ""),
      ("role", .str ""), ("loc", .str "")]),
    ("action", .str "pay"), ("method", .str "POST"), ("path", .str "/bills"),
    ("target", .str ""), ("targetLoc", .str ""), ("outcome", .str "done"),
    ("status", .num status), ("message", .str ""), ("cause", .null),
    ("request", .obj []), ("before", .null), ("result", .null),
    ("changed", .arr [.str "bills"]), ("ip", .str ""), ("userAgent", .str "")]

/-- Three rows, the second of a status no column holds and the third no event
at all; a pass takes two of them, and another the third. -/
def threeRows : List (TxEvent AuditChoice AuditTx) :=
  let c (id : ℕ) (event : Json) : AuditChoice := ⟨id, ⟨"", event⟩, []⟩
  [.begin_ .write, .run 0 (c 1 (sampleEvent 200)),
   .run 0 (c 2 (sampleEvent 70000)), .run 0 (c 3 .null), .commit 0,
   .begin_ (.pass .begun), .begin_ (.pass .begun), .run 1 (c 0 .null),
   .run 2 ⟨0, ⟨"", .null⟩, [1, 2]⟩] ++
    List.replicate 5 (.run 1 (c 0 .null)) ++ [.commit 1] ++
    List.replicate 2 (.run 2 (c 0 .null)) ++ [.commit 2]

theorem drain_keeps_every_event_refused : ∃ w,
    (auditTrail smallints).machine.run ⟨⟨.empty, .empty, [], .empty⟩, []⟩
        threeRows = some w ∧
      (auditTrail smallints).machine.Reach w ∧
      ∃ row event, w.committed.stored.get? 2 = some row ∧
        parseAuditEvent smallints row.event = .ok event ∧
        deadFor w.committed 2 ≠ [] := by
  have hany : ((auditTrail smallints).machine.run
      ⟨⟨.empty, .empty, [], .empty⟩, []⟩ threeRows).any (fun w =>
        (w.committed.stored.get? 2).any (fun row =>
          (parseAuditEvent smallints row.event).toOption.isSome) &&
        !(deadFor w.committed 2).isEmpty) = true := by
    decide +kernel
  obtain ⟨w, hrun, hd⟩ := (Option.any_eq_true _ _).1 hany
  rw [Bool.and_eq_true, Option.any_eq_true] at hd
  obtain ⟨⟨row, hrow, htakes⟩, hdead⟩ := hd
  obtain ⟨event, hevent⟩ := Option.isSome_iff_exists.1 htakes
  have hinit : (auditTrail smallints).machine.Reach
      ⟨⟨.empty, .empty, [], .empty⟩, []⟩ := .init ⟨rfl, rfl⟩
  exact ⟨w, hrun, Machine.reach_run hinit hrun, row, event, hrow,
    toOption_eq_some.1 hevent, by simpa using hdead⟩

theorem drain_keeps_every_event_three : ∃ w,
    (auditTrail smallints).machine.run ⟨⟨.empty, .empty, [], .empty⟩, []⟩
        threeRows = some w ∧
      TrailWhole smallints w.committed ∧
      (w.committed.outbox.keys, w.committed.events.keys,
        w.committed.deadLetters.map DeadLetter.outboxId) = ([], [1], [2, 3]) := by
  have hany : ((auditTrail smallints).machine.run
      ⟨⟨.empty, .empty, [], .empty⟩, []⟩ threeRows).any (fun w => decide (
        (w.committed.outbox.keys, w.committed.events.keys,
          w.committed.deadLetters.map DeadLetter.outboxId) =
            ([], [1], [2, 3]))) = true := by
    decide +kernel
  obtain ⟨w, hrun, hd⟩ := (Option.any_eq_true _ _).1 hany
  have hinit : (auditTrail smallints).machine.Reach
      ⟨⟨.empty, .empty, [], .empty⟩, []⟩ := .init ⟨rfl, rfl⟩
  exact ⟨w, hrun, drain_keeps_every_event (Machine.reach_run hinit hrun),
    of_decide_eq_true hd⟩

end Rch
