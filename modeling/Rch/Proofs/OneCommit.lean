import Rch.Machine.Keys

/-!
# One recorded commit for a key

The record asks that no write behind the row has committed, and holds the row
until its transaction is over. So there is one record that commits, and from
then on no statement touches the row. Where an answer must be recorded for its
write to stand, that is one commit.

Where it need not be, a write may commit unrecorded, and for two reasons. The
schema refused its answer: its claim is deleted with the reply that failed, and
the next request under the key is the first one again. Or the row was filled in
or gone when it came to its record. That is a request which has lost its claim,
or else somebody recorded over the claim it still has, and the row stays that
record's. So of the commits whose answer the schema accepts there is one, too,
among those that still have their claim.
-/

namespace Rch

open Kit

/-! ## What a step does -/

/-- A statement outside any transaction: it leaves a row alone whose write has
committed, and one that somebody else has locked. -/
structure RowsSpared (s : Keys) (i : ℕ) (rows : ClaimRows) : Prop where
  committed : ∀ key row, s.rows.get? key = some row → row.committedAt ≠ none →
    rows.get? key = some row
  locked : ∀ key, s.locked i key = true → uncommitted s.rows key = true →
    uncommitted rows key = true

theorem RowsSpared.refl (s : Keys) (i : ℕ) : RowsSpared s i s.rows :=
  ⟨fun _ _ h _ => h, fun _ _ h => h⟩

/-- Neither has it recorded, nor is it about to commit without. -/
def RequestStage.quiet : RequestStage → Bool
  | .recorded .. | .unrecorded _ => false
  | _ => true

/-- There is no transaction ahead of it any more. -/
def RequestStage.over : RequestStage → Bool
  | .settled _ | .replying .. | .gone => true
  | _ => false

def FilledIn (rows : ClaimRows) (key : ClaimKey) : Prop :=
  ∃ row, rows.get? key = some row ∧ row.committedAt ≠ none

/-- A request that is over stays so. -/
def Keys.Onward (s : Keys) (i : ℕ) (stage : RequestStage) : Prop :=
  ∀ r old, s.requests.get? i = some ⟨r, old⟩ → old.over = true →
    stage.over = true

inductive KeyStep (s : Keys) : Keys → Prop
  | arrives (i : ℕ) (r : KeyRequest) (requests : Table ℕ OpenRequest)
      (new : s.requests.insert? i ⟨r, .arrived 0⟩ = some requests) :
      KeyStep s { s with requests := requests }
  | claims (i : ℕ) (r : KeyRequest) (stage : RequestStage) (rows : ClaimRows)
      (here : s.requests.get? i = some ⟨r, stage⟩) (ahead : stage.over = false)
      (spared : RowsSpared s i rows) (free : ¬FilledIn s.rows r.key)
      (other : ∀ k, k ≠ r.key → rows.get? k = s.rows.get? k) :
      KeyStep s (s.claimed i r.key rows)
  | moves (i : ℕ) (stage : RequestStage) (rows : ClaimRows)
      (quiet : stage.quiet = true) (onward : s.Onward i stage)
      (spared : RowsSpared s i rows)
      (there : ∀ k, (rows.get? k).isSome = true → (s.rows.get? k).isSome = true) :
      KeyStep s ({ s with rows := rows }.at_ i stage)
  | records (i : ℕ) (r : KeyRequest) (body : Json) (at_ : Instant)
      (here : s.requests.get? i = some ⟨r, .holding⟩)
      (free : s.locked i r.key = false)
      (first : uncommitted s.rows r.key = true) :
      KeyStep s (s.at_ i (.recorded body at_))
  | passes (i : ℕ) (r : KeyRequest) (accepted : Bool)
      (here : s.requests.get? i = some ⟨r, .holding⟩)
      (allowed : r.strict = true → r.optional = true)
      (beaten : accepted = true → uncommitted s.rows r.key = false) :
      KeyStep s (s.at_ i (.unrecorded accepted))
  | commits (i : ℕ) (r : KeyRequest) (body : Json) (at_ : Instant)
      (here : s.requests.get? i = some ⟨r, .recorded body at_⟩) :
      KeyStep s (({ s with
        rows := s.rows.modify r.key (ClaimRow.record body at_) }.at_ i
          (.settled true)).committed i r (some body) true)
  | commitsBare (i : ℕ) (r : KeyRequest) (accepted : Bool)
      (here : s.requests.get? i = some ⟨r, .unrecorded accepted⟩) :
      KeyStep s ((s.at_ i (.settled false)).committed i r none accepted)

theorem not_filledIn {rows : ClaimRows} {key : ClaimKey}
    (h : uncommitted rows key = true) : ¬FilledIn rows key := by
  rintro ⟨row, hrow, hc⟩
  unfold uncommitted at h
  rw [hrow, Option.any_some] at h
  exact hc (of_decide_eq_true h)

theorem filledIn_of_there {rows : ClaimRows} {key : ClaimKey}
    (h : uncommitted rows key = false) (hthere : (rows.get? key).isSome = true) :
    FilledIn rows key := by
  obtain ⟨row, hrow⟩ := Option.isSome_iff_exists.1 hthere
  unfold uncommitted at h
  rw [hrow, Option.any_some] at h
  exact ⟨row, hrow, of_decide_eq_false h⟩

theorem tryInsert_spared {s : Keys} {i : ℕ} {key : ClaimKey} {hash : String}
    {now : Instant} {rows : ClaimRows}
    (h : tryInsert s.rows key hash now = some rows) : RowsSpared s i rows := by
  have hget := Table.get?_insert h
  have hfree := (Table.insert?_eq_some h).1
  have hother {k : ClaimKey} {row : ClaimRow} (hk : s.rows.get? k = some row) :
      k ≠ key := by
    rintro rfl
    rw [hfree] at hk
    cases hk
  refine ⟨fun k row hk _ => ?_, fun k _ hk => ?_⟩
  · rw [hget, if_neg (hother hk), hk]
  · unfold uncommitted at hk ⊢
    obtain ⟨row, hrow, -⟩ := (Option.any_eq_true _ _).1 hk
    rw [hget, if_neg (hother hrow)]
    exact hk

/-- Where the rows change under an unlocked key, and only while its row is
uncommitted. -/
theorem spared_of_key {s : Keys} {i : ℕ} {key : ClaimKey} {rows : ClaimRows}
    (hfree : s.locked i key = false) (hrow : uncommitted s.rows key = true)
    (hother : ∀ k, k ≠ key → rows.get? k = s.rows.get? k) :
    RowsSpared s i rows := by
  refine ⟨fun k row hk hc => ?_, fun k hl hk => ?_⟩
  · by_cases h : k = key
    · subst h
      unfold uncommitted at hrow
      rw [hk, Option.any_some] at hrow
      exact absurd (of_decide_eq_true hrow) hc
    · rw [hother k h, hk]
  · by_cases h : k = key
    · rw [h, hfree] at hl
      cases hl
    · unfold uncommitted at hk ⊢
      rwa [hother k h]

theorem tryTakeover_ok {rows rows' : ClaimRows} {key : ClaimKey} {now : Instant}
    (h : tryTakeover rows key now = some rows') :
    uncommitted rows key = true ∧
      ∀ k, k ≠ key → rows'.get? k = rows.get? k := by
  unfold tryTakeover at h
  split at h
  · next habandoned =>
      cases h
      refine ⟨?_, fun k hk => Table.get?_modify_ne _ _ hk⟩
      obtain ⟨row, hrow, ha⟩ := (Option.any_eq_true _ _).1 habandoned
      unfold uncommitted
      rw [hrow, Option.any_some]
      exact decide_eq_true (of_decide_eq_true ha).2.1
  · cases h

theorem recordAfterSend_spared {s : Keys} {i : ℕ} {key : ClaimKey}
    (hfree : s.locked i key = false) (recorded : Bool) (status : ℕ)
    (body : Json) (now : Instant) :
    RowsSpared s i (recordAfterSend s.rows key recorded status body now) := by
  unfold recordAfterSend
  split
  · exact .refl s i
  · split
    · next hrow =>
        split
        · refine spared_of_key hfree hrow fun k hk => ?_
          rw [Table.get?_restrict, if_pos (decide_eq_true hk)]
        · exact spared_of_key hfree hrow fun k hk =>
            Table.get?_modify_ne _ _ hk
    · exact .refl s i

/-- What is done after a reply makes no row. -/
theorem recordAfterSend_there {rows : ClaimRows} {key : ClaimKey}
    (recorded : Bool) (status : ℕ) (body : Json) (now : Instant) (k : ClaimKey)
    (h : ((recordAfterSend rows key recorded status body now).get? k).isSome =
      true) : (rows.get? k).isSome = true := by
  unfold recordAfterSend at h
  split at h
  · exact h
  · split at h
    · split at h
      · rw [Table.get?_restrict] at h
        split at h
        · exact h
        · cases h
      · rwa [Table.isSome_modify] at h
    · exact h

theorem again_quiet (n : ℕ) : (Keys.again n).quiet = true := by
  unfold Keys.again
  split <;> rfl

theorem onward_of_here {s : Keys} {i : ℕ} {r : KeyRequest}
    {old stage : RequestStage} (here : s.requests.get? i = some ⟨r, old⟩)
    (h : old.over = true → stage.over = true) : s.Onward i stage := by
  intro r' old' hr hover
  rw [here] at hr
  cases hr
  exact h hover

theorem keyStep_of_step {s s' : Keys} {e : Keys.Event}
    (h : s.step e = some s') : KeyStep s s' := by
  have hquiet (i : ℕ) (stage : RequestStage) (hs : stage.quiet = true)
      (hon : s.Onward i stage) : KeyStep s (s.at_ i stage) :=
    .moves i stage s.rows hs hon (.refl s i) fun _ h => h
  cases e with
  | arrive i r =>
      obtain ⟨requests, hnew, rfl⟩ := Option.map_eq_some_iff.1 h
      exact .arrives i r requests hnew
  | insert i now =>
      simp only [Keys.step] at h
      split at h
      · next r n here =>
          split at h <;> cases h
          · next hrows =>
              have hfree := (Table.insert?_eq_some hrows).1
              refine .claims i r _ _ here rfl (tryInsert_spared hrows) ?_ ?_
              · rintro ⟨row, hrow, -⟩
                rw [hfree] at hrow
                cases hrow
              · intro k hk
                rw [Table.get?_insert hrows, if_neg hk]
          · exact hquiet i _ rfl (onward_of_here here Bool.noConfusion)
      · cases h
  | lookup i now =>
      simp only [Keys.step] at h
      split at h
      · next r n here =>
          have hon (stage : RequestStage) : s.Onward i stage :=
            onward_of_here here Bool.noConfusion
          split at h <;> cases h
          · exact hquiet i _ (again_quiet _) (hon _)
          · refine hquiet i _ ?_ (hon _)
            cases readClaim _ _ _ <;> rfl
      · cases h
  | takeover i now =>
      simp only [Keys.step] at h
      split at h
      · next r n here =>
          split at h
          · cases h
          · next hfree =>
              have hfree := Bool.eq_false_iff.2 hfree
              split at h <;> cases h
              · next hrows =>
                  obtain ⟨hun, hother⟩ := tryTakeover_ok hrows
                  exact .claims i r _ _ here rfl
                    (spared_of_key hfree hun hother) (not_filledIn hun) hother
              · exact hquiet i _ (again_quiet _)
                  (onward_of_here here Bool.noConfusion)
      · cases h
  | refuse i status body =>
      simp only [Keys.step] at h
      split at h
      · next here =>
          cases h
          exact hquiet i _ rfl (onward_of_here here Bool.noConfusion)
      · cases h
  | record i now answer =>
      simp only [Keys.step] at h
      split at h
      · next r here =>
          have hun (down accepted : Bool)
              (hallowed : down = false → r.strict = true → r.optional = true)
              (hbeaten : accepted = true → uncommitted s.rows r.key = false) :
              KeyStep s (s.unrecordable i down accepted) := by
            cases down with
            | true =>
                exact hquiet i _ rfl (onward_of_here here Bool.noConfusion)
            | false =>
                exact .passes i r accepted here (hallowed rfl) hbeaten
          unfold Keys.recordStmt at h
          split at h
          · cases h
            refine hun _ _ (fun hdown hstrict => ?_) Bool.noConfusion
            rw [hstrict, Bool.true_and] at hdown
            simpa using hdown
          · split at h
            · cases h
            · next hfree =>
                split at h <;> cases h
                · next hrow =>
                    exact .records i r _ now here (Bool.eq_false_iff.2 hfree) hrow
                · next hrow =>
                    exact hun _ _ (fun hdown hstrict =>
                      absurd (hstrict.symm.trans hdown) (by decide))
                      fun _ => Bool.eq_false_iff.2 hrow
      · cases h
  | commit i =>
      simp only [Keys.step] at h
      split at h
      · next r body at_ here =>
          cases h
          exact .commits i r body at_ here
      · next r accepted here =>
          cases h
          exact .commitsBare i r accepted here
      · cases h
  | rollback i body =>
      simp only [Keys.step] at h
      split at h
      · next here =>
          cases h
          exact hquiet i _ rfl (onward_of_here here Bool.noConfusion)
      · next here =>
          cases h
          exact hquiet i _ rfl (onward_of_here here Bool.noConfusion)
      · cases h
  | reply i status body =>
      simp only [Keys.step] at h
      split at h
      · next here =>
          cases h
          exact hquiet i _ rfl (onward_of_here here fun _ => rfl)
      · cases h
  | send i now =>
      simp only [Keys.step] at h
      split at h
      · next here =>
          split at h
          · cases h
          · next hfree =>
              cases h
              exact .moves i .gone _ rfl (onward_of_here here fun _ => rfl)
                (recordAfterSend_spared (Bool.eq_false_iff.2 hfree) _ _ _ now)
                (recordAfterSend_there _ _ _ now)
      · cases h
  | crash i =>
      cases h
      exact hquiet i _ rfl fun _ _ _ _ => rfl

/-! ## What every step keeps -/

/-- The commits under a key that recorded their answer. -/
def recordedFor (s : Keys) (key : ClaimKey) : List KeyCommit :=
  s.commits.filter fun c =>
    decide (c.request.key = key) && c.recorded.isSome

/-- A commit of an answer the schema accepts, by a request that still had its
claim. -/
def KeyCommit.owned (c : KeyCommit) : Bool := c.accepted && c.held

def ownedFor (s : Keys) (key : ClaimKey) : List KeyCommit :=
  s.commits.filter fun c => decide (c.request.key = key) && c.owned

structure KeysKept (s : Keys) : Prop where
  /-- A record not committed yet is over a row nobody else has filled in. -/
  first : ∀ i r body at_, s.requests.get? i = some ⟨r, .recorded body at_⟩ →
    uncommitted s.rows r.key = true
  alone : ∀ i r body at_ i' r' body' at_',
    s.requests.get? i = some ⟨r, .recorded body at_⟩ →
    s.requests.get? i' = some ⟨r', .recorded body' at_'⟩ → r.key = r'.key →
    i = i'
  allowed : ∀ i r a, s.requests.get? i = some ⟨r, .unrecorded a⟩ →
    r.strict = true → r.optional = true
  answer : ∀ c ∈ s.commits, ∀ body, c.recorded = some body →
    ∃ row, s.rows.get? c.request.key = some row ∧ row.committedAt ≠ none ∧
      row.statusCode = 200 ∧ row.response = body
  once : ∀ key, (recordedFor s key).length ≤ 1
  strict : ∀ c ∈ s.commits, c.request.strict = true →
    c.request.optional = false → c.recorded.isSome = true
  /-- Somebody recorded over the claim it still has. -/
  beaten : ∀ i r, s.requests.get? i = some ⟨r, .unrecorded true⟩ →
    s.holds i r.key = true → FilledIn s.rows r.key
  owner : ∀ c ∈ s.commits, c.owned = true →
    s.holder c.request.key = some c.by_ ∧ FilledIn s.rows c.request.key ∧
      ∃ r stage, s.requests.get? c.by_ = some ⟨r, stage⟩ ∧ stage.over = true
  owned : ∀ key, (ownedFor s key).length ≤ 1

theorem keysKept_fresh : KeysKept .fresh where
  first := nofun
  alone := nofun
  allowed := nofun
  answer := nofun
  once _ := Nat.zero_le 1
  strict := nofun
  beaten := nofun
  owner := nofun
  owned _ := Nat.zero_le 1

section Steps

variable {s s' : Keys}

theorem get?_at (s : Keys) (i : ℕ) (stage : RequestStage) (j : ℕ) :
    (s.at_ i stage).requests.get? j =
      if j = i then (s.requests.get? i).map fun r => { r with stage := stage }
      else s.requests.get? j := by
  change (s.requests.modify i _).get? j = _
  rw [Table.get?_modify]
  split
  · next h => rw [h]
  · rfl

/-- A request at a stage it was not just put at was there before. -/
theorem get?_of_at {i j : ℕ} {stage stage' : RequestStage} {r : KeyRequest}
    (h : (s.at_ i stage).requests.get? j = some ⟨r, stage'⟩)
    (hne : stage ≠ stage') : j ≠ i ∧ s.requests.get? j = some ⟨r, stage'⟩ := by
  rw [get?_at] at h
  split at h
  · obtain ⟨r', -, hr'⟩ := Option.map_eq_some_iff.1 h
    cases hr'
    exact absurd rfl hne
  · next hj => exact ⟨hj, h⟩

theorem quiet_ne_recorded {stage : RequestStage} (h : stage.quiet = true)
    (body : Json) (at_ : Instant) : stage ≠ .recorded body at_ := by
  rintro rfl
  cases h

theorem quiet_ne_unrecorded {stage : RequestStage} (h : stage.quiet = true)
    (a : Bool) : stage ≠ .unrecorded a := by
  rintro rfl
  cases h

theorem locked_of_recorded {i j : ℕ} {r : KeyRequest} {body : Json}
    {at_ : Instant} (hj : s.requests.get? j = some ⟨r, .recorded body at_⟩)
    (hne : j ≠ i) : s.locked i r.key = true :=
  List.any_eq_true.2 ⟨(j, ⟨r, .recorded body at_⟩), Table.get?_eq_some.1 hj,
    by simp [hne]⟩

/-- Who has committed is over, whatever somebody else is put at. -/
theorem over_at {i j : ℕ} {stage : RequestStage} (hon : s.Onward i stage)
    (h : ∃ r old, s.requests.get? j = some ⟨r, old⟩ ∧ old.over = true) :
    ∃ r new, (s.at_ i stage).requests.get? j = some ⟨r, new⟩ ∧
      new.over = true := by
  obtain ⟨r, old, hj, hover⟩ := h
  by_cases hji : j = i
  · subst hji
    refine ⟨r, stage, ?_, hon r old hj hover⟩
    rw [get?_at, if_pos rfl, hj, Option.map_some]
  · refine ⟨r, old, ?_, hover⟩
    rw [get?_at, if_neg hji, hj]

theorem FilledIn.spared {i : ℕ} {rows : ClaimRows} {key : ClaimKey}
    (h : FilledIn s.rows key) (hs : RowsSpared s i rows) : FilledIn rows key := by
  obtain ⟨row, hrow, hc⟩ := h
  exact ⟨row, hs.committed key row hrow hc, hc⟩

/-- No record under this key has committed: its row would be filled in. -/
theorem KeysKept.recordedFor_nil (h : KeysKept s) {key : ClaimKey}
    (hopen : ¬FilledIn s.rows key) : recordedFor s key = [] := by
  rw [recordedFor, List.filter_eq_nil_iff]
  rintro c hc hck
  rw [Bool.and_eq_true, decide_eq_true_eq, Option.isSome_iff_exists] at hck
  obtain ⟨rfl, b, hb⟩ := hck
  obtain ⟨row, hrow, hcommitted, -⟩ := h.answer c hc b hb
  exact hopen ⟨row, hrow, hcommitted⟩

theorem ownedFor_nil {key : ClaimKey}
    (hno : ∀ c ∈ s.commits, c.request.key = key → c.owned = true → False) :
    ownedFor s key = [] := by
  rw [ownedFor, List.filter_eq_nil_iff]
  rintro c hc hck
  rw [Bool.and_eq_true, decide_eq_true_eq] at hck
  exact hno c hc hck.1 hck.2

/-- A list of at most one gains one only where it had none. -/
theorem length_filter_concat {p : KeyCommit → Bool} {c : KeyCommit}
    (hold : (s.commits.filter p).length ≤ 1)
    (hnew : p c = true → s.commits.filter p = []) :
    ((s.commits ++ [c]).filter p).length ≤ 1 := by
  rw [List.filter_append, List.length_append]
  cases hp : p c with
  | true =>
      rw [hnew hp, List.filter_cons_of_pos hp]
      exact Nat.le_refl 1
  | false =>
      rw [List.filter_cons_of_neg (Bool.eq_false_iff.1 hp)]
      exact hold

theorem KeysKept.arrives (h : KeysKept s) {i : ℕ} {r : KeyRequest}
    {requests : Table ℕ OpenRequest}
    (new : s.requests.insert? i ⟨r, .arrived 0⟩ = some requests) :
    KeysKept { s with requests := requests } := by
  have hget := Table.get?_insert new
  have hold {j : ℕ} {r' : KeyRequest} {stage : RequestStage}
      (hj : requests.get? j = some ⟨r', stage⟩)
      (hstage : stage ≠ .arrived 0) : s.requests.get? j = some ⟨r', stage⟩ := by
    rw [hget] at hj
    split at hj
    · cases hj
      exact absurd rfl hstage
    · exact hj
  exact
    { first := fun j r' body at_ hj =>
        h.first j r' body at_ (hold hj RequestStage.noConfusion)
      alone := fun j r₁ b a j' r₂ b' a' hj hj' =>
        h.alone j r₁ b a j' r₂ b' a' (hold hj RequestStage.noConfusion)
          (hold hj' RequestStage.noConfusion)
      allowed := fun j r' a hj =>
        h.allowed j r' a (hold hj RequestStage.noConfusion)
      answer := h.answer
      once := h.once
      strict := h.strict
      beaten := fun j r' hj => h.beaten j r' (hold hj RequestStage.noConfusion)
      owner := fun c hc ho => by
        obtain ⟨hholder, hrow, r', stage, hj, hover⟩ := h.owner c hc ho
        refine ⟨hholder, hrow, r', stage, ?_, hover⟩
        change requests.get? c.by_ = _
        rw [hget, if_neg, hj]
        intro hby
        rw [hby, (Table.insert?_eq_some new).1] at hj
        cases hj
      owned := h.owned }

theorem KeysKept.claims (h : KeysKept s) {i : ℕ} {r : KeyRequest}
    {stage : RequestStage} {rows : ClaimRows}
    (here : s.requests.get? i = some ⟨r, stage⟩) (ahead : stage.over = false)
    (spared : RowsSpared s i rows) (free : ¬FilledIn s.rows r.key)
    (other : ∀ k, k ≠ r.key → rows.get? k = s.rows.get? k) :
    KeysKept (s.claimed i r.key rows) where
  first j r' body at_ hj := by
    obtain ⟨hne, hj⟩ := get?_of_at hj RequestStage.noConfusion
    exact spared.locked r'.key (locked_of_recorded hj hne)
      (h.first j r' body at_ hj)
  alone j r₁ b a j' r₂ b' a' hj hj' :=
    h.alone j r₁ b a j' r₂ b' a' (get?_of_at hj RequestStage.noConfusion).2
      (get?_of_at hj' RequestStage.noConfusion).2
  allowed j r' a hj :=
    h.allowed j r' a (get?_of_at hj RequestStage.noConfusion).2
  answer c hc body hb := by
    obtain ⟨row, hrow, hcommitted, hrest⟩ := h.answer c hc body hb
    exact ⟨row, spared.committed _ row hrow hcommitted, hcommitted, hrest⟩
  once := h.once
  strict := h.strict
  beaten j r' hj hholds := by
    obtain ⟨hne, hj⟩ := get?_of_at hj RequestStage.noConfusion
    obtain ⟨hthere, hholder⟩ := Bool.and_eq_true_iff.1 hholds
    have hholder := of_decide_eq_true hholder
    change (if r'.key = r.key then some i else s.holder r'.key) = some j at hholder
    split at hholder
    · cases hholder
      exact absurd rfl hne
    · next hkey =>
        change (rows.get? r'.key).isSome = true at hthere
        rw [other r'.key hkey] at hthere
        refine (h.beaten j r' hj ?_).spared spared
        rw [Keys.holds, hthere, hholder, Bool.true_and]
        exact decide_eq_true rfl
  owner c hc ho := by
    obtain ⟨hholder, hrow, hover⟩ := h.owner c hc ho
    refine ⟨?_, hrow.spared spared, over_at (onward_of_here here ?_) hover⟩
    · change (if c.request.key = r.key then some i else s.holder c.request.key) =
        some c.by_
      rw [if_neg, hholder]
      intro hkey
      exact free (hkey ▸ hrow)
    · rw [ahead]
      exact Bool.noConfusion
  owned := h.owned

theorem KeysKept.moves (h : KeysKept s) {i : ℕ} {stage : RequestStage}
    {rows : ClaimRows} (quiet : stage.quiet = true) (onward : s.Onward i stage)
    (spared : RowsSpared s i rows)
    (there : ∀ k, (rows.get? k).isSome = true → (s.rows.get? k).isSome = true) :
    KeysKept ({ s with rows := rows }.at_ i stage) where
  first j r body at_ hj := by
    obtain ⟨hne, hj⟩ := get?_of_at hj (quiet_ne_recorded quiet body at_)
    exact spared.locked r.key (locked_of_recorded hj hne)
      (h.first j r body at_ hj)
  alone j r body at_ j' r' body' at_' hj hj' :=
    h.alone j r body at_ j' r' body' at_'
      (get?_of_at hj (quiet_ne_recorded quiet body at_)).2
      (get?_of_at hj' (quiet_ne_recorded quiet body' at_')).2
  allowed j r a hj :=
    h.allowed j r a (get?_of_at hj (quiet_ne_unrecorded quiet a)).2
  answer c hc body hb := by
    obtain ⟨row, hrow, hcommitted, hrest⟩ := h.answer c hc body hb
    exact ⟨row, spared.committed _ row hrow hcommitted, hcommitted, hrest⟩
  once := h.once
  strict := h.strict
  beaten j r hj hholds := by
    obtain ⟨hthere, hholder⟩ := Bool.and_eq_true_iff.1 hholds
    refine (h.beaten j r (get?_of_at hj (quiet_ne_unrecorded quiet true)).2
      ?_).spared spared
    exact Bool.and_eq_true_iff.2 ⟨there r.key hthere, hholder⟩
  owner c hc ho := by
    obtain ⟨hholder, hrow, hover⟩ := h.owner c hc ho
    exact ⟨hholder, hrow.spared spared, over_at onward hover⟩
  owned := h.owned

theorem KeysKept.records (h : KeysKept s) {i : ℕ} {r : KeyRequest} {body : Json}
    {at_ : Instant} (here : s.requests.get? i = some ⟨r, .holding⟩)
    (free : s.locked i r.key = false)
    (first : uncommitted s.rows r.key = true) :
    KeysKept (s.at_ i (.recorded body at_)) := by
  -- who has recorded now is this request, or had before, on another key
  have hcases {j : ℕ} {r' : KeyRequest} {b : Json} {a : Instant}
      (hj : (s.at_ i (.recorded body at_)).requests.get? j =
        some ⟨r', .recorded b a⟩) :
      (j = i ∧ r' = r) ∨
        (s.requests.get? j = some ⟨r', .recorded b a⟩ ∧ r'.key ≠ r.key) := by
    rw [get?_at] at hj
    split at hj
    · next hji =>
        rw [here] at hj
        cases hj
        exact .inl ⟨hji, rfl⟩
    · next hji =>
        refine .inr ⟨hj, fun hkey => ?_⟩
        have := locked_of_recorded hj hji
        rw [hkey, free] at this
        cases this
  exact
    { first := fun j r' b a hj => by
        rcases hcases hj with ⟨-, rfl⟩ | ⟨hj, -⟩
        · exact first
        · exact h.first j r' b a hj
      alone := fun j r₁ b a j' r₂ b' a' hj hj' hkey => by
        rcases hcases hj with ⟨rfl, rfl⟩ | ⟨hj, hne⟩
        · rcases hcases hj' with ⟨rfl, -⟩ | ⟨-, hne'⟩
          · rfl
          · exact absurd hkey.symm hne'
        · rcases hcases hj' with ⟨-, rfl⟩ | ⟨hj', -⟩
          · exact absurd hkey hne
          · exact h.alone j r₁ b a j' r₂ b' a' hj hj' hkey
      allowed := fun j r' a hj =>
        h.allowed j r' a (get?_of_at hj RequestStage.noConfusion).2
      answer := h.answer
      once := h.once
      strict := h.strict
      beaten := fun j r' hj hholds =>
        h.beaten j r' (get?_of_at hj RequestStage.noConfusion).2 hholds
      owner := fun c hc ho => by
        obtain ⟨hholder, hrow, hover⟩ := h.owner c hc ho
        exact ⟨hholder, hrow,
          over_at (onward_of_here here Bool.noConfusion) hover⟩
      owned := h.owned }

theorem KeysKept.passes (h : KeysKept s) {i : ℕ} {r : KeyRequest}
    {accepted : Bool} (here : s.requests.get? i = some ⟨r, .holding⟩)
    (allowed : r.strict = true → r.optional = true)
    (beaten : accepted = true → uncommitted s.rows r.key = false) :
    KeysKept (s.at_ i (.unrecorded accepted)) where
  first j r' body at_ hj := h.first j r' body at_ (get?_of_at hj nofun).2
  alone j r₁ b a j' r₂ b' a' hj hj' :=
    h.alone j r₁ b a j' r₂ b' a' (get?_of_at hj nofun).2 (get?_of_at hj' nofun).2
  allowed j r' a hj := by
    rw [get?_at] at hj
    split at hj
    · rw [here] at hj
      cases hj
      exact allowed
    · exact h.allowed j r' a hj
  answer := h.answer
  once := h.once
  strict := h.strict
  beaten j r' hj hholds := by
    rw [get?_at] at hj
    split at hj
    · rw [here] at hj
      cases hj
      exact filledIn_of_there (beaten rfl) (Bool.and_eq_true_iff.1 hholds).1
    · exact h.beaten j r' hj hholds
  owner c hc ho := by
    obtain ⟨hholder, hrow, hover⟩ := h.owner c hc ho
    exact ⟨hholder, hrow, over_at (onward_of_here here Bool.noConfusion) hover⟩
  owned := h.owned

theorem KeysKept.commits (h : KeysKept s) {i : ℕ} {r : KeyRequest} {body : Json}
    {at_ : Instant} (here : s.requests.get? i = some ⟨r, .recorded body at_⟩) :
    KeysKept (({ s with
      rows := s.rows.modify r.key (ClaimRow.record body at_) }.at_ i
        (.settled true)).committed i r (some body) true) := by
  have hrow := h.first i r body at_ here
  have hopen := not_filledIn hrow
  obtain ⟨row, hget, -⟩ := (Option.any_eq_true _ _).1 hrow
  have hother {j : ℕ} {r' : KeyRequest} {b : Json} {a : Instant}
      (hj : s.requests.get? j = some ⟨r', .recorded b a⟩) (hji : j ≠ i) :
      r'.key ≠ r.key :=
    fun hkey => hji (h.alone j r' b a i r body at_ hj here hkey)
  have hne {key : ClaimKey} (hk : FilledIn s.rows key) : key ≠ r.key := by
    rintro rfl
    exact hopen hk
  have hfilled {key : ClaimKey} (hk : FilledIn s.rows key) :
      FilledIn (s.rows.modify r.key (ClaimRow.record body at_)) key := by
    obtain ⟨row', hrow', hc⟩ := hk
    refine ⟨row', ?_, hc⟩
    rw [Table.get?_modify_ne _ _ (hne ⟨row', hrow', hc⟩), hrow']
  have hnew : FilledIn (s.rows.modify r.key (ClaimRow.record body at_)) r.key := by
    refine ⟨.record body at_ row, ?_, Option.some_ne_none at_⟩
    rw [Table.get?_modify_self, hget, Option.map_some]
  exact
    { first := fun j r' b a hj => by
        obtain ⟨hji, hj⟩ := get?_of_at hj nofun
        change uncommitted (s.rows.modify r.key _) r'.key = true
        unfold uncommitted
        rw [Table.get?_modify_ne _ _ (hother hj hji)]
        exact h.first j r' b a hj
      alone := fun j r₁ b a j' r₂ b' a' hj hj' =>
        h.alone j r₁ b a j' r₂ b' a' (get?_of_at hj nofun).2
          (get?_of_at hj' nofun).2
      allowed := fun j r' a hj => h.allowed j r' a (get?_of_at hj nofun).2
      answer := fun c hc b hb => by
        change ∃ row, (s.rows.modify r.key _).get? c.request.key = some row ∧ _
        rcases List.mem_append.1 hc with hc | hc
        · obtain ⟨row', hrow', hc', hrest⟩ := h.answer c hc b hb
          rw [Table.get?_modify_ne _ _ (hne ⟨row', hrow', hc'⟩)]
          exact ⟨row', hrow', hc', hrest⟩
        · obtain rfl := List.mem_singleton.1 hc
          cases hb
          rw [Table.get?_modify_self, hget]
          exact ⟨_, rfl, nofun, rfl, rfl⟩
      once := fun key => by
        refine length_filter_concat (h.once key) fun hp => ?_
        rw [Bool.and_eq_true, decide_eq_true_eq] at hp
        exact h.recordedFor_nil (hp.1 ▸ hopen)
      strict := fun c hc hs ho => by
        rcases List.mem_append.1 hc with hc | hc
        · exact h.strict c hc hs ho
        · obtain rfl := List.mem_singleton.1 hc
          rfl
      beaten := fun j r' hj hholds => by
        obtain ⟨-, hj⟩ := get?_of_at hj nofun
        obtain ⟨hthere, hholder⟩ := Bool.and_eq_true_iff.1 hholds
        change ((s.rows.modify r.key _).get? r'.key).isSome = true at hthere
        rw [Table.isSome_modify] at hthere
        exact hfilled (h.beaten j r' hj
          (Bool.and_eq_true_iff.2 ⟨hthere, hholder⟩))
      owner := fun c hc ho => by
        rcases List.mem_append.1 hc with hc | hc
        · obtain ⟨hholder, hrow', hover⟩ := h.owner c hc ho
          exact ⟨hholder, hfilled hrow',
            over_at (onward_of_here here Bool.noConfusion) hover⟩
        · obtain rfl := List.mem_singleton.1 hc
          have hheld := (Bool.and_eq_true_iff.1 ho).2
          refine ⟨of_decide_eq_true (Bool.and_eq_true_iff.1 hheld).2, hnew,
            r, .settled true, ?_, rfl⟩
          change (s.at_ i (.settled true)).requests.get? i = _
          rw [get?_at, if_pos rfl, here, Option.map_some]
      owned := fun key => by
        refine length_filter_concat (h.owned key) fun hp => ?_
        rw [Bool.and_eq_true, decide_eq_true_eq] at hp
        refine ownedFor_nil fun c hc hkey ho => hopen ?_
        exact (hkey.trans hp.1.symm) ▸ (h.owner c hc ho).2.1 }

theorem KeysKept.commitsBare (h : KeysKept s) {i : ℕ} {r : KeyRequest}
    {accepted : Bool}
    (here : s.requests.get? i = some ⟨r, .unrecorded accepted⟩) :
    KeysKept ((s.at_ i (.settled false)).committed i r none accepted) where
  first j r' body at_ hj := h.first j r' body at_ (get?_of_at hj nofun).2
  alone j r₁ b a j' r₂ b' a' hj hj' :=
    h.alone j r₁ b a j' r₂ b' a' (get?_of_at hj nofun).2 (get?_of_at hj' nofun).2
  allowed j r' a hj := h.allowed j r' a (get?_of_at hj nofun).2
  answer c hc body hb := by
    rcases List.mem_append.1 hc with hc | hc
    · exact h.answer c hc body hb
    · obtain rfl := List.mem_singleton.1 hc
      cases hb
  once key := by
    refine length_filter_concat (h.once key) fun hp => ?_
    cases (Bool.and_eq_true_iff.1 hp).2
  strict c hc hs ho := by
    rcases List.mem_append.1 hc with hc | hc
    · exact h.strict c hc hs ho
    · obtain rfl := List.mem_singleton.1 hc
      have hopt := h.allowed i r accepted here hs
      rw [ho] at hopt
      cases hopt
  beaten j r' hj := h.beaten j r' (get?_of_at hj nofun).2
  owner c hc ho := by
    rcases List.mem_append.1 hc with hc | hc
    · obtain ⟨hholder, hrow, hover⟩ := h.owner c hc ho
      exact ⟨hholder, hrow, over_at (onward_of_here here Bool.noConfusion) hover⟩
    · obtain rfl := List.mem_singleton.1 hc
      obtain ⟨rfl, hheld⟩ := Bool.and_eq_true_iff.1 ho
      refine ⟨of_decide_eq_true (Bool.and_eq_true_iff.1 hheld).2,
        h.beaten i r here hheld, r, .settled false, ?_, rfl⟩
      change (s.at_ i (.settled false)).requests.get? i = _
      rw [get?_at, if_pos rfl, here, Option.map_some]
  owned key := by
    refine length_filter_concat (h.owned key) fun hp => ?_
    rw [Bool.and_eq_true, decide_eq_true_eq] at hp
    obtain ⟨-, hheld⟩ := Bool.and_eq_true_iff.1 hp.2
    have hholder := of_decide_eq_true (Bool.and_eq_true_iff.1 hheld).2
    -- an earlier one is this request's, and that one is over
    refine ownedFor_nil fun c hc hkey ho => ?_
    obtain ⟨hby, -, r', stage, hj, hover⟩ := h.owner c hc ho
    rw [hkey.trans hp.1.symm] at hby
    obtain rfl := Option.some.inj (hby.symm.trans hholder)
    rw [here] at hj
    cases hj
    cases hover

theorem KeysKept.step (h : KeysKept s) (hs : KeyStep s s') : KeysKept s' := by
  cases hs with
  | arrives i r requests new => exact h.arrives new
  | claims i r stage rows here ahead spared free other =>
      exact h.claims here ahead spared free other
  | moves i stage rows quiet onward spared there =>
      exact h.moves quiet onward spared there
  | records i r body at_ here free first => exact h.records here free first
  | passes i r accepted here allowed beaten => exact h.passes here allowed beaten
  | commits i r body at_ here => exact h.commits here
  | commitsBare i r accepted here => exact h.commitsBare here

end Steps

theorem keys_kept {s : Keys} (h : Keys.machine.Reach s) : KeysKept s := by
  refine h.invariant ?_ ?_
  · rintro s rfl
    exact keysKept_fresh
  · intro s e s' _ hs he
    exact hs.step (keyStep_of_step he)

/-! ## Over whole runs -/

/-- A commit that had to record its answer to stand, or did record it. -/
def KeyCommit.standing (c : KeyCommit) : Bool :=
  c.recorded.isSome || c.request.strict && !c.request.optional

def AnswersWith (s : Keys) (key : ClaimKey) (body : Json) : Prop :=
  ∀ i now s', s.step (.lookup i now) = some s' → ∀ r status response,
    s'.requests.get? i = some ⟨r, .answered (.replay status response)⟩ →
      r.key = key → status = 200 ∧ response = body

theorem KeysKept.answersWith {s : Keys} (h : KeysKept s) {c : KeyCommit}
    (hc : c ∈ s.commits) {body : Json} (hb : c.recorded = some body) :
    AnswersWith s c.request.key body := by
  intro i now s' hs r status response hr hkey
  obtain ⟨row, hrow, -, hstatus, hresponse⟩ := h.answer c hc body hb
  simp only [Keys.step] at hs
  split at hs
  · next r₀ n here =>
      have hput {stage : RequestStage}
          (hr : (s.at_ i stage).requests.get? i =
            some ⟨r, .answered (.replay status response)⟩) :
          r = r₀ ∧ stage = .answered (.replay status response) := by
        rw [get?_at, if_pos rfl, here] at hr
        cases hr
        exact ⟨rfl, rfl⟩
      split at hs
      · next hnone =>
          cases hs
          obtain ⟨rfl, -⟩ := hput hr
          rw [hkey, hrow] at hnone
          cases hnone
      · next hit hhit =>
          cases hs
          obtain ⟨rfl, hstage⟩ := hput hr
          rw [hkey, hrow] at hhit
          cases hhit
          unfold readClaim at hstage
          split at hstage
          · cases hstage
          · split at hstage
            · cases hstage
              exact ⟨hstatus, hresponse⟩
            · split at hstage <;> cases hstage
  · cases hs

/-- Whatever the order of claims, takeovers, records, replies and crashes: of
the commits under a key, at most one recorded its answer or had to, and at most
one is of an answer the schema accepts by a request that still has its claim;
and once one has recorded, whoever is answered from the key gets that answer. -/
theorem one_commit_per_key {s : Keys} (h : Keys.machine.Reach s)
    (key : ClaimKey) :
    (s.commits.filter fun c =>
      decide (c.request.key = key) && c.standing).length ≤ 1 ∧
      (s.commits.filter fun c =>
        decide (c.request.key = key) && c.owned).length ≤ 1 ∧
      ∀ c ∈ s.commits, c.request.key = key → ∀ body,
        c.recorded = some body → AnswersWith s key body := by
  have hk := keys_kept h
  refine ⟨?_, hk.owned key, fun c hc hkey body hb => hkey ▸ hk.answersWith hc hb⟩
  have heq : (s.commits.filter fun c =>
      decide (c.request.key = key) && c.standing) = recordedFor s key := by
    apply List.filter_congr
    intro c hc
    congr 1
    unfold KeyCommit.standing
    cases hs : c.request.strict && !c.request.optional with
    | false => rw [Bool.or_false]
    | true =>
        rw [Bool.and_eq_true] at hs
        rw [hk.strict c hc hs.1 (by simpa using hs.2)]
        rfl
  rw [heq]
  exact hk.once key

/-! ## Where an answer may go unrecorded -/

def billing (strict : Bool) : KeyRequest := ⟨⟨"k", "u1"⟩, "h", strict, false⟩

/-- An answer its schema refuses: the write stands, the reply is a 500, and the
claim goes with it. The client sends the request again. -/
def sentTwice : List Keys.Event :=
  [.arrive 1 (billing false), .insert 1 0, .record 1 0 none, .commit 1,
   .reply 1 500 .null, .send 1 0, .arrive 2 (billing false), .insert 2 1,
   .record 2 1 none, .commit 2]

/-- A claim taken over while its holder is still at work: the second commits,
and the first finds the row filled in. -/
def takenOver (strict : Bool) : List Keys.Event :=
  [.arrive 1 (billing strict), .insert 1 0, .arrive 2 (billing strict),
   .insert 2 200000, .lookup 2 200000, .takeover 2 200000,
   .record 2 200000 (some (.str "CF/1188")), .commit 2, .reply 2 200 .null,
   .record 1 200001 (some (.str "CF/1189"))]

def thirdAsks : List Keys.Event :=
  [.send 1 200002, .arrive 3 (billing true), .insert 3 200003]

/-- Either way two transactions commit. -/
theorem one_commit_per_key_twice :
    (∃ s, Keys.machine.run .fresh sentTwice = some s ∧ Keys.machine.Reach s ∧
      s.commits.map KeyCommit.request = [billing false, billing false]) ∧
    ∃ s, Keys.machine.run .fresh (takenOver false ++ [.commit 1]) = some s ∧
      Keys.machine.Reach s ∧
      s.commits.map KeyCommit.request = [billing false, billing false] := by
  have hinit : Keys.machine.Reach .fresh := .init rfl
  have hsent : (Keys.machine.run .fresh sentTwice).any (fun s =>
      decide (s.commits.map KeyCommit.request =
        [billing false, billing false])) = true := by
    decide +kernel
  have htaken : (Keys.machine.run .fresh (takenOver false ++ [.commit 1])).any
      (fun s => decide (s.commits.map KeyCommit.request =
        [billing false, billing false])) = true := by
    decide +kernel
  obtain ⟨s, hrun, hd⟩ := (Option.any_eq_true _ _).1 hsent
  obtain ⟨s', hrun', hd'⟩ := (Option.any_eq_true _ _).1 htaken
  exact ⟨⟨s, hrun, Machine.reach_run hinit hrun, of_decide_eq_true hd⟩,
    s', hrun', Machine.reach_run hinit hrun', of_decide_eq_true hd'⟩

/-- The request's commit, where its answer is this bill's number. -/
def KeyCommit.bills (c : KeyCommit) (no : String) : Bool :=
  decide (c.request = billing true) &&
    match c.recorded with
    | some (.str s) => decide (s = no)
    | _ => false

/-- The first goes down where it must record, and a third request is answered
from the row. -/
theorem one_commit_per_key_takeover : ∃ s,
    Keys.machine.run .fresh (takenOver true ++ thirdAsks) = some s ∧
      AnswersWith s ⟨"k", "u1"⟩ (.str "CF/1188") ∧
      (s.step (.lookup 3 200004)).isSome = true := by
  have hany : (Keys.machine.run .fresh (takenOver true ++ thirdAsks)).any
      (fun s => s.commits.any (fun c => c.bills "CF/1188") &&
        (s.step (.lookup 3 200004)).isSome) = true := by
    decide +kernel
  obtain ⟨s, hrun, hd⟩ := (Option.any_eq_true _ _).1 hany
  rw [Bool.and_eq_true, List.any_eq_true] at hd
  obtain ⟨⟨c, hc, hd⟩, hlook⟩ := hd
  rw [KeyCommit.bills, Bool.and_eq_true, decide_eq_true_eq] at hd
  obtain ⟨hreq, hbody⟩ := hd
  have hrec : c.recorded = some (.str "CF/1188") := by
    split at hbody
    · next no hno => rw [hno, of_decide_eq_true hbody]
    · cases hbody
  have hinit : Keys.machine.Reach .fresh := .init rfl
  exact ⟨s, hrun, (one_commit_per_key (Machine.reach_run hinit hrun)
    ⟨"k", "u1"⟩).2.2 c hc (by rw [hreq]; rfl) _ hrec, hlook⟩

end Rch
