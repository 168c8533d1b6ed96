import Rch.Screen.Feed

/-!
# Where a change goes unheard

A collection is owed a read from the commit that names it until the browser asks
for it. What brings the read about is a notice on its way, in one of three
places, or a resync still to come; the invariant says that everything owed has
one of these coming.

A resync makes up for less than it seems. It is sent to a browser that comes
back only where the browser has seen a frame, and by a pod that comes back only
where it has listened before, so the first gap of either link is never made up
for. And what it brings is a snapshot, which leaves out the Credit screen, the
shift reports, the counter's queue and the kitchen's report.
-/

namespace Rch

open Kit

variable {u : Viewer} {s s' : Feed} {c : Collection}

/-! ## What is coming -/

/-- The browser will ask for it when the debounce ends. -/
def Feed.InHand (u : Viewer) (s : Feed) (c : Collection) : Prop :=
  s.flush = true ∧ (c ∈ s.pending ∨ s.wantsSnapshot = true ∧ inSnapshot u c = true)

/-- A frame on its way will have the browser ask for it. -/
def Frame.Brings (u : Viewer) (c : Collection) : Frame → Prop
  | .retry => False
  | .changed _ c' => c' = c
  | .resync _ => inSnapshot u c = true

def Feed.OnStream (u : Viewer) (s : Feed) (c : Collection) : Prop :=
  ∃ k, s.stream = some k ∧ ∃ f ∈ k.frames, f.Brings u c

def Feed.Admitted (s : Feed) : Prop := ∃ k, s.stream = some k ∧ k.admitted = true

/-- The pod will hear of it, or will send a resync once it listens again. -/
def Feed.AtPod (u : Viewer) (s : Feed) (c : Collection) : Prop :=
  s.Admitted ∧ ((s.listener = .up ∧ ∃ cs ∈ s.wire, c ∈ cs) ∨
    (s.listener ≠ .up ∧ s.everConnected = true ∧ inSnapshot u c = true))

/-- The pod will send a resync once it admits the stream. -/
def Feed.AtReopening (u : Viewer) (s : Feed) (c : Collection) : Prop :=
  inSnapshot u c = true ∧
    ((s.stream = none ∧ s.lastEventId.isSome = true) ∨
      ∃ k, s.stream = some k ∧ k.admitted = false ∧ k.lastId.isSome = true)

/-- A read of it is coming. -/
inductive Feed.Due (u : Viewer) (s : Feed) (c : Collection) : Prop
  | inHand (h : s.InHand u c)
  | onStream (h : s.OnStream u c)
  | atPod (h : s.AtPod u c)
  | atReopening (h : s.AtReopening u c)

/-! ## The condition -/

/-- Nothing is missed that no resync makes up for.

A write commits while the pod listens and has admitted the stream, or while a
read of what it names is coming anyway. The stream drops only where everything
owed is in the browser's hands already, or is in a snapshot and the browser has
seen a frame. The pod's connection fails only where everything owed is past it,
or is in a snapshot. A burst with a resync in it stands for no collection that
is in no snapshot. -/
def NothingMissed (u : Viewer) (s : Feed) : Feed.Event → Prop
  | .commit changed => s.snapshotRead.isSome = true → ∀ c ∈ changed,
    follows u c = true → (s.listener = .up ∧ s.Admitted) ∨ s.Due u c
  | .drop => ∀ c, s.Owed u c → s.InHand u c ∨
    (inSnapshot u c = true ∧ s.lastEventId.isSome = true)
  | .deafen => ∀ c, s.Owed u c → s.InHand u c ∨ s.OnStream u c ∨
    inSnapshot u c = true
  | .flush => s.wantsSnapshot = true → ∀ c, s.Owed u c → inSnapshot u c = true ∨
    s.OnStream u c ∨ s.AtPod u c
  | _ => True

structure FeedKept (u : Viewer) (s : Feed) : Prop where
  due : ∀ c, s.Owed u c → s.Due u c
  listened : s.listener = .up → s.everConnected = true

/-! ## What the reads answer for -/

theorem answersFor_of_mem {calls : List (List Route)} {routes : List Route}
    (hmem : routes ∈ calls) (hw : wants u c = routes.flatMap Route.sets) :
    answersFor u calls c = true := by
  refine List.all_eq_true.2 fun x hx => decide_eq_true ?_
  rw [hw] at hx
  obtain ⟨route, hr, hx⟩ := List.mem_flatMap.1 hx
  exact List.mem_flatMap.2 ⟨route, List.mem_flatten.2 ⟨routes, hmem, hr⟩, hx⟩

theorem narrow_none (h : (NARROW u c).isNone = true) : c ∈ STOCK := by
  cases c <;> first | decide | cases h

theorem refetch_answers (hu : u.admin = false) {changed : List Collection}
    (hc : c ∈ changed) : answersFor u (refetch u changed) c = true := by
  have hwant : c ∈ changed.dedup := List.mem_dedup.2 hc
  have hfall : (changed.dedup.any fun c =>
      (NARROW u c).isNone && decide (c ∉ STOCK)) = false := by
    refine List.any_eq_false.2 fun c' _ h => ?_
    obtain ⟨hnone, hout⟩ := Bool.and_eq_true_iff.1 h
    exact of_decide_eq_true hout (narrow_none hnone)
  have hcalls : refetch u changed =
      (if changed.dedup.any fun c => decide (c ∈ STOCK) then [[.stock]] else []) ++
        (changed.dedup.filterMap (NARROW u)).filter fun calls => !calls.isEmpty := by
    unfold refetch
    rw [hu, if_neg Bool.false_ne_true]
    dsimp only
    rw [hfall, if_neg Bool.false_ne_true]
  rw [hcalls]
  cases hn : NARROW u c with
  | none =>
      have hstock : c ∈ STOCK := narrow_none (Option.isNone_iff_eq_none.2 hn)
      have hw : wants u c = [Route.stock].flatMap Route.sets := by
        unfold wants
        rw [hn, Option.getD_none]
      refine answersFor_of_mem (List.mem_append_left _ ?_) hw
      rw [if_pos (List.any_eq_true.2 ⟨c, hwant, decide_eq_true hstock⟩)]
      exact List.mem_singleton_self _
  | some routes =>
      have hw : wants u c = routes.flatMap Route.sets := by
        unfold wants
        rw [hn, Option.getD_some]
      cases routes with
      | nil =>
          unfold answersFor
          rw [hw]
          rfl
      | cons r rest =>
          refine answersFor_of_mem (List.mem_append_right _ ?_) hw
          exact List.mem_filter.2 ⟨List.mem_filterMap.2 ⟨c, hwant, hn⟩, rfl⟩

theorem loadSnapshot_eq (hu : u.admin = false) :
    Rch.loadSnapshot u = [[.snapshot]] := by
  unfold Rch.loadSnapshot
  rw [hu, if_neg Bool.false_ne_true]

/-- What is owed after the asking is not answered for by the calls. -/
theorem Feed.Owed.of_ask {calls : List (List Route)} (h : (s.ask u calls).Owed u c) :
    s.Owed u c ∧ answersFor u calls c = false := by
  obtain ⟨hf, n, k, cs, hn, hk, hcs, hc, hasked⟩ := h
  have hlt : k < s.commits.length := (List.getElem?_eq_some_iff.1 hcs).1
  change (if answersFor u calls c then s.commits.length else s.asked c) ≤ k at hasked
  split at hasked
  · omega
  · next hno =>
      exact ⟨⟨hf, n, k, cs, hn, hk, hcs, hc, hasked⟩, Bool.not_eq_true _ ▸ hno⟩

/-! ## What a step leaves coming -/

/-- One stream carries on as another: more frames on their way and nothing else
that matters here. -/
inductive Carries : Option Stream → Option Stream → Prop
  | none : Carries none none
  | some {k k' : Stream} (hid : k'.lastId = k.lastId)
      (hadmitted : k'.admitted = k.admitted)
      (hframes : ∀ f ∈ k.frames, f ∈ k'.frames) : Carries (some k) (some k')

theorem Carries.refl : ∀ k : Option Stream, Carries k k
  | .none => .none
  | .some _ => .some rfl rfl fun _ => id

theorem Carries.trans {a b d : Option Stream} (h : Carries a b)
    (h' : Carries b d) : Carries a d := by
  cases h with
  | none => exact h'
  | some hid hadmitted hframes =>
      cases h' with
      | some hid' hadmitted' hframes' =>
          exact .some (hid'.trans hid) (hadmitted'.trans hadmitted)
            fun f hf => hframes' f (hframes f hf)

/-- The links and the browser stand as they did. -/
structure Feed.Stands (s s' : Feed) : Prop where
  stream : Carries s.stream s'.stream
  listener : s'.listener = s.listener
  everConnected : s'.everConnected = s.everConnected
  lastEventId : s'.lastEventId = s.lastEventId
  pending : s'.pending = s.pending
  wantsSnapshot : s'.wantsSnapshot = s.wantsSnapshot
  flush : s'.flush = s.flush

theorem Feed.Stands.onStream (h : s.Stands s') (hd : s.OnStream u c) :
    s'.OnStream u c := by
  obtain ⟨k, hk, f, hf, hb⟩ := hd
  have hcarries := h.stream
  rw [hk] at hcarries
  cases hk' : s'.stream with
  | none =>
      rw [hk'] at hcarries
      cases hcarries
  | some k' =>
      rw [hk'] at hcarries
      cases hcarries with
      | some _ _ hframes => exact ⟨k', hk', f, hframes f hf, hb⟩

theorem Feed.Stands.admitted (h : s.Stands s') (hd : s.Admitted) :
    s'.Admitted := by
  obtain ⟨k, hk, ha⟩ := hd
  have hcarries := h.stream
  rw [hk] at hcarries
  cases hk' : s'.stream with
  | none =>
      rw [hk'] at hcarries
      cases hcarries
  | some k' =>
      rw [hk'] at hcarries
      cases hcarries with
      | some _ hadmitted _ => exact ⟨k', hk', hadmitted.trans ha⟩

theorem Feed.Stands.atReopening (h : s.Stands s') (hd : s.AtReopening u c) :
    s'.AtReopening u c := by
  have hcarries := h.stream
  refine ⟨hd.1, ?_⟩
  rcases hd.2 with ⟨hnone, hid⟩ | ⟨k, hk, ha, hid⟩
  · rw [hnone] at hcarries
    refine .inl ⟨?_, h.lastEventId ▸ hid⟩
    cases hk' : s'.stream with
    | none => rfl
    | some k' =>
        rw [hk'] at hcarries
        cases hcarries
  · rw [hk] at hcarries
    cases hk' : s'.stream with
    | none =>
        rw [hk'] at hcarries
        cases hcarries
    | some k' =>
        rw [hk'] at hcarries
        cases hcarries with
        | some hid' hadmitted _ =>
            exact .inr ⟨k', rfl, hadmitted.trans ha, hid' ▸ hid⟩

theorem Feed.Stands.inHand (h : s.Stands s') (hd : s.InHand u c) :
    s'.InHand u c := by
  unfold Feed.InHand
  rw [h.flush, h.pending, h.wantsSnapshot]
  exact hd

/-- What was coming still is, where what the channel had for the pod is. -/
theorem Feed.Due.stands (hd : s.Due u c) (h : s.Stands s')
    (hwire : ∀ cs ∈ s.wire, c ∈ cs → s.listener = .up → s.Admitted →
      s'.Due u c) : s'.Due u c := by
  cases hd with
  | inHand hd => exact .inHand (h.inHand hd)
  | onStream hd => exact .onStream (h.onStream hd)
  | atPod hd =>
      obtain ⟨ha, ⟨hup, cs, hcs, hc⟩ | ⟨hdown, hever, hin⟩⟩ := hd
      · exact hwire cs hcs hc hup ha
      · exact .atPod ⟨h.admitted ha,
          .inr ⟨h.listener ▸ hdown, h.everConnected ▸ hever, hin⟩⟩
  | atReopening hd => exact .atReopening (h.atReopening hd)

theorem Feed.broadcast_stands (f : ℕ → Frame) : s.Stands (s.broadcast f) := by
  refine ⟨?_, rfl, rfl, rfl, rfl, rfl, rfl⟩
  unfold Feed.broadcast
  cases s.stream with
  | none => exact .none
  | some k =>
      rw [Option.map_some]
      split
      · exact .some rfl rfl fun f' hf' => List.mem_append_left _ hf'
      · exact .refl _

theorem Feed.Stands.trans {s'' : Feed} (h : s.Stands s') (h' : s'.Stands s'') :
    s.Stands s'' :=
  ⟨h.stream.trans h'.stream, h'.listener.trans h.listener,
    h'.everConnected.trans h.everConnected, h'.lastEventId.trans h.lastEventId,
    h'.pending.trans h.pending, h'.wantsSnapshot.trans h.wantsSnapshot,
    h'.flush.trans h.flush⟩

theorem Feed.onStream_broadcast {f : ℕ → Frame} (ha : s.Admitted)
    (hf : ∀ id, (f id).Brings u c) : (s.broadcast f).OnStream u c := by
  obtain ⟨k, hk, ha⟩ := ha
  refine ⟨{ k with frames := k.frames ++ [f (s.seq + 1)] }, ?_, f (s.seq + 1),
    List.mem_append_right _ (List.mem_singleton_self _), hf _⟩
  unfold Feed.broadcast
  rw [hk, Option.map_some, if_pos ha]

theorem Feed.publish_stands (cs : List Collection) :
    s.Stands (s.publish u cs) := by
  unfold Feed.publish
  induction cs generalizing s with
  | nil => exact ⟨.refl _, rfl, rfl, rfl, rfl, rfl, rfl⟩
  | cons c cs ih =>
      rw [List.foldl_cons]
      refine Feed.Stands.trans ?_ ih
      split
      · exact ⟨.refl _, rfl, rfl, rfl, rfl, rfl, rfl⟩
      · exact Feed.broadcast_stands _

/-- The pod keeps no books of its own. -/
theorem Feed.publish_books (cs : List Collection) :
    (s.publish u cs).commits = s.commits ∧
      (s.publish u cs).snapshotRead = s.snapshotRead ∧
      (s.publish u cs).asked = s.asked ∧ (s.publish u cs).wire = s.wire := by
  unfold Feed.publish
  induction cs generalizing s with
  | nil => exact ⟨rfl, rfl, rfl, rfl⟩
  | cons c cs ih =>
      rw [List.foldl_cons]
      split
      · exact ih (s := { s with seq := s.seq + 1 })
      · exact ih (s := s.broadcast fun id => .changed id c)

theorem Feed.owed_congr (hc : s'.commits = s.commits)
    (hn : s'.snapshotRead = s.snapshotRead) (ha : s'.asked = s.asked) :
    s'.Owed u c ↔ s.Owed u c := by
  unfold Feed.Owed
  rw [hc, hn, ha]

/-- Only the admin's session follows the audit log, and not by a read. -/
theorem follows_audit (h : follows u c = true) :
    ¬ (c = .audit ∧ u.admin = false) := by
  rintro ⟨rfl, -⟩
  cases h

theorem Feed.onStream_publish {cs : List Collection} (hc : c ∈ cs)
    (hf : ¬ (c = .audit ∧ u.admin = false)) (ha : s.Admitted) :
    (s.publish u cs).OnStream u c := by
  induction cs generalizing s with
  | nil => cases hc
  | cons d cs ih =>
      have hrest (s₁ : Feed) : s₁.Stands (s₁.publish u cs) :=
        Feed.publish_stands cs
      change (Feed.publish u cs (if d = .audit ∧ u.admin = false then _
        else _)).OnStream u c
      rcases List.mem_cons.1 hc with rfl | hc
      · rw [if_neg hf]
        exact (hrest _).onStream (Feed.onStream_broadcast ha fun _ => rfl)
      · refine ih hc ?_
        split
        · exact ha
        · exact (Feed.broadcast_stands _).admitted ha

/-! ## Each step -/

/-- A step at which nothing more is owed leaves coming what was. -/
theorem FeedKept.stands (h : FeedKept u s) (hst : s.Stands s')
    (howed : ∀ c, s'.Owed u c → s.Owed u c)
    (hwire : ∀ c, ∀ cs ∈ s.wire, c ∈ cs → s.Owed u c → s.listener = .up →
      s.Admitted → s'.Due u c) : FeedKept u s' where
  due c hc := (h.due c (howed c hc)).stands hst fun cs hcs hmem hup ha =>
    hwire c cs hcs hmem (howed c hc) hup ha
  listened hup := by
    rw [hst.everConnected]
    exact h.listened (hst.listener ▸ hup)

theorem feedKept_commit (h : FeedKept u s) {changed : List Collection}
    (hC : NothingMissed u s (.commit changed))
    (he : s.step u (.commit changed) = some s') : FeedKept u s' := by
  cases he
  refine ⟨fun c hc => ?_, h.listened⟩
  obtain ⟨hf, n, k, cs, hn, hk, hcs, hmem, hasked⟩ := hc
  dsimp only at hn hcs hasked
  have hkeep : s.Due u c → Feed.Due u
      { s with
        commits := s.commits ++ [changed]
        wire :=
          if s.listener = .down ∨ changed = [] then s.wire
          else s.wire ++ [changed.dedup] } c := fun hd =>
    hd.stands ⟨.refl _, rfl, rfl, rfl, rfl, rfl, rfl⟩
      fun cs hcs hmem hup ha => .atPod ⟨ha, .inl ⟨hup, cs, by
        dsimp only
        split
        · exact hcs
        · exact List.mem_append_left _ hcs, hmem⟩⟩
  rw [List.getElem?_append] at hcs
  split at hcs
  · exact hkeep (h.due c ⟨hf, n, k, cs, hn, hk, hcs, hmem, hasked⟩)
  · -- the commit itself
    have hcs' : changed = cs := List.mem_singleton.1 (List.mem_of_getElem? hcs) |>.symm
    subst hcs'
    rcases hC (hn ▸ rfl) c hmem hf with ⟨hup, ha⟩ | hd
    · refine .atPod ⟨ha, .inl ⟨hup, changed.dedup, ?_, List.mem_dedup.2 hmem⟩⟩
      have hwire : ¬ (s.listener = .down ∨ changed = []) := by
        rintro (hdown | rfl)
        · rw [hup] at hdown
          cases hdown
        · cases hmem
      dsimp only
      rw [if_neg hwire]
      exact List.mem_append_right _ (List.mem_singleton_self _)
    · exact hkeep hd

theorem feedKept_hear (h : FeedKept u s) (he : s.step u .hear = some s') :
    FeedKept u s' := by
  simp only [Feed.step] at he
  split at he
  case h_1 => cases he
  next cs wire hwire =>
  cases he
  have hheard : s.Stands { s with wire := wire } :=
    ⟨.refl _, rfl, rfl, rfl, rfl, rfl, rfl⟩
  split
  · next hup =>
      obtain ⟨hc, hn, ha, hw⟩ :=
        Feed.publish_books (u := u) (s := { s with wire := wire }) cs
      have hst : s.Stands (Feed.publish u cs { s with wire := wire }) :=
        hheard.trans (Feed.publish_stands cs)
      refine h.stands hst (fun c => (Feed.owed_congr hc hn ha).1) ?_
      intro c cs' hcs' hmem howed _ hadmitted
      rw [hwire] at hcs'
      rcases List.mem_cons.1 hcs' with rfl | hcs'
      · exact .onStream (Feed.onStream_publish hmem (follows_audit howed.1)
          hadmitted)
      · refine .atPod ⟨hst.admitted hadmitted, .inl ⟨?_, cs', ?_, hmem⟩⟩
        · exact hst.listener.trans hup
        · rw [hw]
          exact hcs'
  · next hdown =>
      refine h.stands hheard (fun c => id) ?_
      intro c cs' _ _ _ hup _
      exact absurd hup hdown

theorem feedKept_attach (h : FeedKept u s) (he : s.step u .attach = some s') :
    FeedKept u s' := by
  simp only [Feed.step] at he
  split at he
  case isFalse => cases he
  next hsub =>
  cases he
  have hnot : s.listener ≠ .up := by
    rw [hsub]
    decide
  -- What is coming from elsewhere is coming still.
  have hkept (s' : Feed)
      (hst : Feed.Stands { s with listener := .up, everConnected := true } s')
      (howed : ∀ c, s'.Owed u c → s.Owed u c)
      (hpod : ∀ c, s.everConnected = true → inSnapshot u c = true → s.Admitted →
        s'.Due u c) : FeedKept u s' := by
    refine ⟨fun c hc => ?_, fun _ => hst.everConnected⟩
    cases h.due c (howed c hc) with
    | inHand hd => exact .inHand (hst.inHand hd)
    | onStream hd => exact .onStream (hst.onStream hd)
    | atPod hd =>
        obtain ⟨ha, ⟨hup, -⟩ | ⟨-, hever, hin⟩⟩ := hd
        · exact absurd hup hnot
        · exact hpod c hever hin ha
    | atReopening hd => exact .atReopening (hst.atReopening hd)
  split
  · refine hkept _ (Feed.broadcast_stands _) (fun c => id) fun c _ hin ha => ?_
    exact .onStream (Feed.onStream_broadcast ha fun _ => hin)
  · next hever =>
      refine hkept _ ⟨.refl _, rfl, rfl, rfl, rfl, rfl, rfl⟩ (fun c => id)
        fun c hever' _ _ => ?_
      exact absurd hever' hever

theorem feedKept_deafen (h : FeedKept u s) (hC : NothingMissed u s .deafen)
    (he : s.step u .deafen = some s') : FeedKept u s' := by
  cases he
  have hdown : Listener.down ≠ .up := by decide
  refine ⟨fun c hc => ?_, fun hup => absurd hup hdown⟩
  have hpod (ha : s.Admitted) (hever : s.everConnected = true)
      (hin : inSnapshot u c = true) :
      Feed.Due u { s with listener := .down, wire := [] } c :=
    .atPod ⟨ha, .inr ⟨hdown, hever, hin⟩⟩
  cases h.due c hc with
  | inHand hd => exact .inHand hd
  | onStream hd => exact .onStream hd
  | atPod hd =>
      obtain ⟨ha, ⟨hup, -⟩ | ⟨-, hever, hin⟩⟩ := hd
      · rcases hC c hc with hd | hd | hin
        · exact .inHand hd
        · exact .onStream hd
        · exact hpod ha (h.listened hup) hin
      · exact hpod ha hever hin
  | atReopening hd => exact .atReopening hd

/-- The browser opens a connection where it has none, with the last id it has
seen. -/
theorem feedKept_open (h : FeedKept u s) (hnone : s.stream = none) :
    FeedKept u s.open_ := by
  refine ⟨fun c hc => ?_, h.listened⟩
  cases h.due c hc with
  | inHand hd => exact .inHand hd
  | onStream hd =>
      obtain ⟨k, hk, -⟩ := hd
      rw [hnone] at hk
      cases hk
  | atPod hd =>
      obtain ⟨⟨k, hk, -⟩, -⟩ := hd
      rw [hnone] at hk
      cases hk
  | atReopening hd =>
      obtain ⟨hin, ⟨-, hid⟩ | ⟨k, hk, -⟩⟩ := hd
      · exact .atReopening ⟨hin, .inr ⟨_, rfl, rfl, hid⟩⟩
      · rw [hnone] at hk
        cases hk

theorem feedKept_letIn (h : FeedKept u s) (he : s.step u .letIn = some s') :
    FeedKept u s' := by
  simp only [Feed.step] at he
  split at he
  case h_2 => cases he
  next k hk =>
  split at he
  · cases he
  next hnot =>
  cases he
  refine ⟨fun c hc => ?_, h.listened⟩
  have hframes {f : Frame} (hf : f ∈ k.frames) :
      f ∈ (k.letIn (s.seq + 1)).frames := List.mem_append_left _ hf
  cases h.due c hc with
  | inHand hd => exact .inHand hd
  | onStream hd =>
      obtain ⟨k', hk', f, hf, hb⟩ := hd
      rw [hk] at hk'
      cases hk'
      exact .onStream ⟨_, rfl, f, hframes hf, hb⟩
  | atPod hd =>
      obtain ⟨⟨k', hk', ha⟩, -⟩ := hd
      rw [hk] at hk'
      cases hk'
      exact absurd ha hnot
  | atReopening hd =>
      obtain ⟨hin, ⟨hnone, -⟩ | ⟨k', hk', -, hid⟩⟩ := hd
      · rw [hk] at hnone
        cases hnone
      · rw [hk] at hk'
        cases hk'
        refine .onStream ⟨_, rfl, .resync (s.seq + 1), ?_, hin⟩
        refine List.mem_append_right _ (List.mem_cons_of_mem _ ?_)
        rw [if_pos hid]
        exact List.mem_singleton_self _

theorem feedKept_live (h : FeedKept u s) (he : s.step u .live = some s') :
    FeedKept u s' := by
  simp only [Feed.step] at he
  split at he
  case h_2 => cases he
  next k hk =>
  split at he
  case isFalse => cases he
  cases he
  have hst : s.Stands { s with stream := some { k with live := true } } := by
    refine ⟨?_, rfl, rfl, rfl, rfl, rfl, rfl⟩
    rw [hk]
    exact .some rfl rfl fun _ => id
  refine h.stands hst (fun c => id) fun c cs hcs hmem _ hup ha => ?_
  exact .atPod ⟨hst.admitted ha, .inl ⟨hup, cs, hcs, hmem⟩⟩

theorem feedKept_drop (h : FeedKept u s) (hC : NothingMissed u s .drop)
    (he : s.step u .drop = some s') : FeedKept u s' := by
  simp only [Feed.step] at he
  split at he
  case isFalse => cases he
  cases he
  refine ⟨fun c hc => ?_, h.listened⟩
  rcases hC c hc with hd | ⟨hin, hid⟩
  · exact .inHand hd
  · exact .atReopening ⟨hin, .inl ⟨rfl, hid⟩⟩

theorem Feed.onFrame_inHand (f : Frame) (h : s.InHand u c) :
    (s.onFrame f).InHand u c := by
  obtain ⟨hflush, hd⟩ := h
  cases f with
  | retry => exact ⟨hflush, hd⟩
  | changed id c' => exact ⟨rfl, hd.imp_left (List.mem_append_left _)⟩
  | resync id => exact ⟨rfl, hd.imp_right fun ⟨_, hin⟩ => ⟨rfl, hin⟩⟩

/-- A frame that brings a collection puts it into the browser's hands. -/
theorem Frame.Brings.inHand {f : Frame} (h : f.Brings u c) :
    (s.onFrame f).InHand u c := by
  cases f with
  | retry => cases h
  | changed id c' =>
      cases h
      exact ⟨rfl, .inl (List.mem_append_right _ (List.mem_singleton_self _))⟩
  | resync id => exact ⟨rfl, .inr ⟨rfl, h⟩⟩

theorem feedKept_frame (h : FeedKept u s) (he : s.step u .frame = some s') :
    FeedKept u s' := by
  simp only [Feed.step] at he
  split at he
  case h_2 => cases he
  next lastId admitted f frames hk =>
  cases he
  have hsame (s : Feed) : (s.onFrame f).stream = s.stream ∧
      (s.onFrame f).listener = s.listener ∧ (s.onFrame f).wire = s.wire ∧
      (s.onFrame f).everConnected = s.everConnected ∧
      (s.onFrame f).commits = s.commits ∧
      (s.onFrame f).snapshotRead = s.snapshotRead ∧
      (s.onFrame f).asked = s.asked := by
    cases f <;> exact ⟨rfl, rfl, rfl, rfl, rfl, rfl, rfl⟩
  obtain ⟨hstream, hlist, hwire, hever, hcommits, hread, hasked⟩ :=
    hsame { s with stream := some ⟨lastId, admitted, true, frames⟩ }
  refine ⟨fun c hc => ?_, fun hup => hever.trans (h.listened (hlist ▸ hup))⟩
  cases h.due c ((Feed.owed_congr hcommits hread hasked).1 hc) with
  | inHand hd => exact .inHand (Feed.onFrame_inHand f hd)
  | onStream hd =>
      obtain ⟨k, hk', f', hf', hb⟩ := hd
      rw [hk] at hk'
      cases hk'
      rcases List.mem_cons.1 hf' with rfl | hf'
      · exact .inHand hb.inHand
      · exact .onStream ⟨_, hstream, f', hf', hb⟩
  | atPod hd =>
      obtain ⟨⟨k, hk', ha⟩, hd⟩ := hd
      rw [hk] at hk'
      cases hk'
      refine .atPod ⟨⟨_, hstream, ha⟩, ?_⟩
      rw [hlist, hwire, hever]
      exact hd
  | atReopening hd =>
      obtain ⟨hin, ⟨hnone, -⟩ | ⟨k, hk', ha, hid⟩⟩ := hd
      · rw [hk] at hnone
        cases hnone
      · rw [hk] at hk'
        cases hk'
        exact .atReopening ⟨hin, .inr ⟨_, hstream, ha, hid⟩⟩

theorem feedKept_ask (h : FeedKept u s) (calls : List (List Route)) :
    FeedKept u (s.ask u calls) := by
  refine ⟨fun c hc => ?_, h.listened⟩
  cases h.due c hc.of_ask.1 with
  | inHand hd => exact .inHand hd
  | onStream hd => exact .onStream hd
  | atPod hd => exact .atPod hd
  | atReopening hd => exact .atReopening hd

theorem feedKept_flush (hu : u.admin = false) (h : FeedKept u s)
    (hC : NothingMissed u s .flush) (he : s.step u .flush = some s') :
    FeedKept u s' := by
  simp only [Feed.step] at he
  split at he
  case isFalse => cases he
  cases he
  refine ⟨fun c hc => ?_, h.listened⟩
  obtain ⟨howed, hno⟩ := hc.of_ask
  have hfar (hd : s.OnStream u c ∨ s.AtPod u c ∨ s.AtReopening u c) :
      Feed.Due u (Feed.ask u
        (if s.wantsSnapshot then Rch.loadSnapshot u else Rch.refetch u s.pending)
        { s with flush := false, pending := [], wantsSnapshot := false }) c := by
    rcases hd with hd | hd | hd
    · exact .onStream hd
    · exact .atPod hd
    · exact .atReopening hd
  by_cases hsnap : s.wantsSnapshot = true
  · rw [if_pos hsnap, loadSnapshot_eq hu] at hno
    rcases hC hsnap c howed with hin | hd | hd
    · exact absurd hin (ne_true_of_eq_false hno)
    · exact hfar (.inl hd)
    · exact hfar (.inr (.inl hd))
  · rw [if_neg hsnap] at hno
    cases h.due c howed with
    | inHand hd =>
        rcases hd.2 with hpending | ⟨hsnap', -⟩
        · exact absurd (refetch_answers hu hpending) (ne_true_of_eq_false hno)
        · exact absurd hsnap' hsnap
    | onStream hd => exact hfar (.inl hd)
    | atPod hd => exact hfar (.inr (.inl hd))
    | atReopening hd => exact hfar (.inr (.inr hd))

theorem feedKept_step (hu : u.admin = false) {e : Feed.Event} (h : FeedKept u s)
    (hC : NothingMissed u s e) (he : s.step u e = some s') : FeedKept u s' := by
  cases e with
  | commit changed => exact feedKept_commit h hC he
  | hear => exact feedKept_hear h he
  | listen =>
      simp only [Feed.step] at he
      split at he
      case isFalse => cases he
      next hdown =>
      cases he
      have hsub : Listener.subscribed ≠ .up := by decide
      refine ⟨fun c hc => ?_, fun hup => absurd hup hsub⟩
      cases h.due c hc with
      | inHand hd => exact .inHand hd
      | onStream hd => exact .onStream hd
      | atPod hd =>
          obtain ⟨ha, ⟨hup, -⟩ | ⟨-, hd⟩⟩ := hd
          · rw [hdown] at hup
            cases hup
          · exact .atPod ⟨ha, .inr ⟨hsub, hd⟩⟩
      | atReopening hd => exact .atReopening hd
  | attach => exact feedKept_attach h he
  | deafen => exact feedKept_deafen h hC he
  | readSnapshot =>
      simp only [Feed.step] at he
      split at he
      case isFalse => cases he
      cases he
      refine ⟨fun c hc => ?_, h.listened⟩
      -- Every commit there is came before it.
      obtain ⟨-, n, k, cs, hn, hk, hcs, -⟩ := hc
      cases hn
      have hlt := (List.getElem?_eq_some_iff.1 hcs).1
      exact absurd hlt (Nat.not_lt_of_le hk)
  | ready =>
      simp only [Feed.step] at he
      split at he
      case isFalse => cases he
      next hnone =>
      cases he
      have hst : s.Stands { s with ready := true } :=
        ⟨.refl _, rfl, rfl, rfl, rfl, rfl, rfl⟩
      have hready : FeedKept u { s with ready := true } :=
        h.stands hst (fun c => id) fun c cs hcs hmem _ hup ha =>
          .atPod ⟨ha, .inl ⟨hup, cs, hcs, hmem⟩⟩
      exact feedKept_open hready (Option.isNone_iff_eq_none.1 hnone.2.2)
  | letIn => exact feedKept_letIn h he
  | live => exact feedKept_live h he
  | frame => exact feedKept_frame h he
  | drop => exact feedKept_drop h hC he
  | reconnect =>
      simp only [Feed.step] at he
      split at he
      case isFalse => cases he
      next hnone =>
      cases he
      exact feedKept_open h (Option.isNone_iff_eq_none.1 hnone.1)
  | flush => exact feedKept_flush hu h hC he
  | answer i =>
      simp only [Feed.step] at he
      split at he
      case isFalse => cases he
      cases he
      have hst : s.Stands { s with reads := s.reads.eraseIdx i } :=
        ⟨.refl _, rfl, rfl, rfl, rfl, rfl, rfl⟩
      refine h.stands hst (fun c => id) fun c cs hcs hmem _ hup ha => ?_
      exact .atPod ⟨ha, .inl ⟨hup, cs, hcs, hmem⟩⟩
  | refetch changed =>
      cases he
      exact feedKept_ask h _
  | loadSnapshot =>
      cases he
      exact feedKept_ask h _

theorem feedKept_reach (hu : u.admin = false)
    (h : (feed u).ReachVia (NothingMissed u) s) : FeedKept u s := by
  refine h.invariant ?_ fun s e s' _ hk hC he => feedKept_step hu hk hC he
  rintro s ⟨hcommits, -, -, -, -, -, -, -, -, hlistened⟩
  refine ⟨fun c hc => ?_, hlistened⟩
  obtain ⟨-, n, k, cs, -, -, hcs, -⟩ := hc
  rw [hcommits] at hcs
  cases hcs

/-- Nothing is coming to a quiet session. -/
theorem Feed.Quiet.not_due (hq : s.Quiet) : ¬ s.Due u c := by
  obtain ⟨⟨k, hk, hadmitted, -, hframes⟩, hup, hwire, hflush, -⟩ := hq
  rintro (hd | hd | hd | hd)
  · rw [hd.1] at hflush
    cases hflush
  · obtain ⟨k', hk', f, hf, -⟩ := hd
    rw [hk] at hk'
    cases hk'
    rw [hframes] at hf
    cases hf
  · obtain ⟨-, ⟨-, cs, hcs, -⟩ | ⟨hdown, -⟩⟩ := hd
    · rw [hwire] at hcs
      cases hcs
    · exact hdown hup
  · obtain ⟨-, ⟨hnone, -⟩ | ⟨k', hk', hnot, -⟩⟩ := hd
    · rw [hk] at hnone
      cases hnone
    · rw [hk] at hk'
      cases hk'
      rw [hadmitted] at hnot
      cases hnot

/-- In every run of an operator's session in which nothing is missed that no
resync makes up for: once the session is quiet, every collection it reads that a
write named since its snapshot was read has been asked for since. -/
theorem no_change_unheard (hu : u.admin = false)
    (h : (feed u).ReachVia (NothingMissed u) s) (hq : s.Quiet) (n k : ℕ)
    (cs : List Collection) (hn : s.snapshotRead = some n) (hk : n ≤ k)
    (hcs : s.commits[k]? = some cs) (hc : c ∈ cs) (hf : follows u c = true) :
    k < s.asked c := by
  by_contra hasked
  have howed : s.Owed u c :=
    ⟨hf, n, k, cs, hn, hk, hcs, hc, Nat.le_of_not_lt hasked⟩
  exact hq.not_due ((feedKept_reach hu h).due c howed)

/-! ## A session at a till -/

/-- The check behind the condition, for a run whose links hold. -/
def linksHold (s : Feed) : Feed.Event → Bool
  | .commit _ => decide (s.listener = .up) && s.stream.any Stream.admitted
  | .drop | .deafen => false
  | .flush => !s.wantsSnapshot
  | _ => true

theorem linksHold_sound (s : Feed) (e : Feed.Event) (h : linksHold s e = true) :
    NothingMissed u s e := by
  cases e with
  | commit changed =>
      intro _ c _ _
      obtain ⟨hup, hany⟩ := Bool.and_eq_true_iff.1 h
      obtain ⟨k, hk, ha⟩ := (Option.any_eq_true _ _).1 hany
      exact .inl ⟨of_decide_eq_true hup, k, hk, ha⟩
  | drop => cases h
  | deafen => cases h
  | flush =>
      intro hsnap
      change (!s.wantsSnapshot) = true at h
      rw [hsnap] at h
      cases h
  | _ => exact trivial

def atTill : Viewer := ⟨false, ⟨fun f => if f = .billing then some .edit else none, []⟩⟩

def beforeSnapshot : Feed where
  commits := []
  wire := []
  listener := .up
  everConnected := true
  seq := 0
  stream := none
  ready := false
  lastEventId := none
  pending := []
  wantsSnapshot := false
  flush := false
  reads := []
  snapshotRead := none
  asked _ := 0

theorem beforeSnapshot_init : (feed atTill).init beforeSnapshot :=
  ⟨rfl, rfl, rfl, rfl, rfl, rfl, rfl, rfl, rfl, fun _ => rfl⟩

/-- What `Quiet` says, as a check. -/
def quiet (s : Feed) : Bool :=
  (s.stream.any fun k => k.admitted && k.live && k.frames.isEmpty) &&
    decide (s.listener = .up) && s.wire.isEmpty && !s.flush && s.reads.isEmpty

theorem quiet_sound (h : quiet s = true) : s.Quiet := by
  simp only [quiet, Bool.and_eq_true, Option.any_eq_true, List.isEmpty_iff,
    decide_eq_true_eq, Bool.not_eq_true'] at h
  obtain ⟨⟨⟨⟨⟨k, hk, ⟨ha, hl⟩, hf⟩, hup⟩, hw⟩, hflush⟩, hr⟩ := h
  exact ⟨⟨k, hk, ha, hl, hf⟩, hup, hw, hflush, hr⟩

/-- Another till takes a bill once the stream is open. -/
def billHeard : List Feed.Event :=
  [.readSnapshot, .ready, .letIn, .live, .frame, .commit [.bills, .stock], .hear,
   .frame, .frame, .flush, .answer 0, .answer 0]

theorem no_change_unheard_bill : ∃ s,
    (feed atTill).runVia linksHold beforeSnapshot billHeard = some s ∧ s.Quiet ∧
      s.commits = [[.bills, .stock]] ∧ 0 < s.asked .bills := by
  have hany : ((feed atTill).runVia linksHold beforeSnapshot billHeard).any (fun s =>
      quiet s && decide (s.snapshotRead = some 0 ∧
        s.commits = [[.bills, .stock]])) = true := by
    decide +kernel
  obtain ⟨s, hrun, hd⟩ := (Option.any_eq_true _ _).1 hany
  obtain ⟨hquiet, hd⟩ := Bool.and_eq_true_iff.1 hd
  obtain ⟨hn, hcommits⟩ := of_decide_eq_true hd
  have hinit : (feed atTill).ReachVia (NothingMissed atTill) beforeSnapshot :=
    .init beforeSnapshot_init
  have hreach := Machine.reachVia_runVia linksHold_sound hinit hrun
  have hcs : s.commits[0]? = some [.bills, .stock] := by
    rw [hcommits]
    rfl
  have hq := quiet_sound hquiet
  exact ⟨s, hrun, hq, hcommits, no_change_unheard rfl hreach hq 0 0 _ hn
    (Nat.le_refl 0) hcs List.mem_cons_self rfl⟩

/-- The bill is taken between the snapshot and the stream that should cover
it. -/
def billUnheard : List Feed.Event :=
  [.readSnapshot, .commit [.bills, .stock], .hear, .ready, .letIn, .live, .frame]

/-- The session is quiet, and will never ask for the bills that were taken since
its snapshot was read. -/
theorem change_unheard_bill : ∃ s, (feed atTill).Reach s ∧ s.Quiet ∧
    s.snapshotRead = some 0 ∧ s.commits = [[.bills, .stock]] ∧
    follows atTill .bills = true ∧ s.asked .bills = 0 := by
  have hany : ((feed atTill).run beforeSnapshot billUnheard).any (fun s =>
      quiet s && decide (s.snapshotRead = some 0 ∧
        s.commits = [[.bills, .stock]] ∧ follows atTill .bills = true ∧
        s.asked .bills = 0)) = true := by
    decide +kernel
  obtain ⟨s, hrun, hd⟩ := (Option.any_eq_true _ _).1 hany
  obtain ⟨hquiet, hd⟩ := Bool.and_eq_true_iff.1 hd
  exact ⟨s, Machine.reach_run (.init beforeSnapshot_init) hrun, quiet_sound hquiet,
    of_decide_eq_true hd⟩

end Rch
