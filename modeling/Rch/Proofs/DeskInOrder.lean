import Mathlib.Logic.Relation
import Rch.Machine.Support
import Rch.Proofs.NumbersApart

/-!
# The support desk's conversations

A ticket's row is held by whoever writes on it, from the look that decides to the
commit. So the messages counted are the ones there are, their numbers run from one
without a gap and none is refused, and the word a write starts from is the word the
ticket is at: every ticket walks the table, and a closed one stays closed and takes
no more messages.

A ticket is open until the desk first touches it, and nothing brings the word back:
what is open has no answer and no rating.
-/

namespace Rch.Support

open Kit

variable {s s' : Desk} {held held' : List (Lock DeskLock)}

/-! ## The numbers of messages -/

theorem messageId_injective {t t' : String} {k k' : ℕ} (h : messageId t k = messageId t' k') :
    t = t' ∧ k = k' := by
  have hends : ∀ (t : String) (k : ℕ), EndsIn k (messageId t k).toList := by
    intro t k
    refine .digits (t ++ "/").toList 'm' 0 (by decide) ?_ k
    rw [String.toList_append, String.toList_append, List.append_assoc]
    rfl
  have hk : k = k' := by rw [← (hends t k).counter, h, (hends t' k').counter]
  refine ⟨?_, hk⟩
  rw [hk] at h
  unfold messageId at h
  exact String.append_left_inj "/m" |>.1 (String.append_left_inj (toString k') |>.1 h)

theorem mem_messagesOf {id mid : String} {m : MessageRow} :
    (mid, m) ∈ messagesOf s id ↔ s.messages.get? mid = some m ∧ m.ticketId = id := by
  rw [messagesOf, List.mem_filter, decide_eq_true_eq, Table.get?_eq_some]

/-! ## The desk in order -/

structure InOrder (s : Desk) : Prop where
  numbered : ∀ id r, s.tickets.get? id = some r →
    ∃ n, n < s.sequence ∧ id = formatId .support n 0
  about : ∀ mid m, s.messages.get? mid = some m → (s.tickets.get? m.ticketId).isSome = true ∧
    ∃ k, 1 ≤ k ∧ k ≤ (messagesOf s m.ticketId).length ∧ mid = messageId m.ticketId k
  each : ∀ id k, 1 ≤ k → k ≤ (messagesOf s id).length →
    ∃ m, s.messages.get? (messageId id k) = some m ∧ m.ticketId = id
  untouched : ∀ id r, s.tickets.get? id = some r → r.status = .open_ → r.rating = none ∧
    ∀ m ∈ messagesOf s id, m.2.from_ = .user

theorem InOrder.unnumbered (h : InOrder s) :
    s.tickets.get? (formatId .support s.sequence 0) = none := by
  cases hget : s.tickets.get? (formatId .support s.sequence 0) with
  | none => rfl
  | some r =>
      obtain ⟨n, hn, heq⟩ := h.numbered _ r hget
      rw [(formatId_injective heq).2] at hn
      exact absurd hn (Nat.lt_irrefl n)

/-- Nothing is said on a ticket that is not there. -/
theorem InOrder.silent (h : InOrder s) {id : String} (hnone : s.tickets.get? id = none) :
    messagesOf s id = [] := by
  refine List.eq_nil_iff_forall_not_mem.2 fun p hp => ?_
  obtain ⟨hget, hid⟩ := mem_messagesOf.1 hp
  have hsome := (h.about p.1 p.2 hget).1
  rw [hid, hnone] at hsome
  cases hsome

/-- The number after the last is free. -/
theorem InOrder.unsaid (h : InOrder s) (id : String) :
    s.messages.get? (messageId id ((messagesOf s id).length + 1)) = none := by
  cases hget : s.messages.get? (messageId id ((messagesOf s id).length + 1)) with
  | none => rfl
  | some m =>
      obtain ⟨-, k, -, hle, heq⟩ := h.about _ m hget
      obtain ⟨hid, hk⟩ := messageId_injective heq
      rw [← hid, ← hk] at hle
      exact absurd hle (Nat.not_succ_le_self _)

/-! ## What one write does -/

/-- What a write may make of a ticket, with the message it adds. -/
inductive Legal : Option TicketRow → TicketRow → Option MessageRow → Prop
  | raised (row : TicketRow) (msg : Option MessageRow) (status : row.status = .open_)
      (rating : row.rating = none) (from_ : ∀ m, msg = some m → m.from_ = .user) :
      Legal none row msg
  | said (row : TicketRow) (next : TicketStatus) (m : MessageRow)
      (still : row.status ≠ .closed)
      (edge : next = row.status ∨ next ∈ SUPPORT_TRANSITIONS row.status)
      (from_ : next = .open_ → m.from_ = .user) :
      Legal (some row) { row with status := next } (some m)
  | moved (row : TicketRow) (next : TicketStatus)
      (edge : next ∈ SUPPORT_TRANSITIONS row.status) :
      Legal (some row) { row with status := next } none
  | rated (row : TicketRow) (rating : Rating) (ended : mayRate row.status = true) :
      Legal (some row) { row with rating := some rating } none

/-- One ticket is touched, under its row's lock. -/
structure Touch (s : Desk) (held : List (Lock DeskLock)) (s' : Desk) (id : String)
    (old : Option TicketRow) (row : TicketRow) (msg : Option MessageRow) : Prop where
  key : ⟨.ticket id, .update⟩ ∈ held
  stands : s.tickets.get? id = old
  tickets : ∀ k, s'.tickets.get? k = if k = id then some row else s.tickets.get? k
  messages : s'.messages.rows = s.messages.rows ++
    (msg.map fun m => (messageId id ((messagesOf s id).length + 1), m)).toList
  about : ∀ m, msg = some m → m.ticketId = id
  raised : old = none → ⟨.sequence, .noKeyUpdate⟩ ∈ held ∧
    id = formatId .support s.sequence 0 ∧ s'.sequence = s.sequence + 1
  kept : old ≠ none → s'.sequence = s.sequence
  legal : Legal old row msg

/-- Nothing leads back to open. -/
theorem not_open_of_edge {a : TicketStatus} : TicketStatus.open_ ∉ SUPPORT_TRANSITIONS a := by
  cases a <;> decide

section Touch

variable {id : String} {old : Option TicketRow} {row : TicketRow} {msg : Option MessageRow}

theorem Touch.messagesOf_ne (h : Touch s held s' id old row msg) {k : String} (hk : k ≠ id) :
    messagesOf s' k = messagesOf s k := by
  unfold messagesOf
  rw [h.messages, List.filter_append]
  cases msg with
  | none => exact List.append_nil _
  | some m =>
      rw [Option.map_some, Option.toList_some, List.filter_cons_of_neg, List.filter_nil,
        List.append_nil]
      dsimp only
      rw [h.about m rfl, decide_eq_true_eq]
      exact Ne.symm hk

theorem Touch.messagesOf_self (h : Touch s held s' id old row msg) :
    messagesOf s' id = messagesOf s id ++
      (msg.map fun m => (messageId id ((messagesOf s id).length + 1), m)).toList := by
  conv_lhs => unfold messagesOf
  rw [h.messages, List.filter_append]
  congr 1
  cases msg with
  | none => rfl
  | some m =>
      rw [Option.map_some, Option.toList_some, List.filter_cons_of_pos, List.filter_nil]
      dsimp only
      rw [h.about m rfl, decide_eq_true_eq]

theorem Touch.messagesOf_prefix (h : Touch s held s' id old row msg) (k : String) :
    messagesOf s k <+: messagesOf s' k := by
  by_cases hk : k = id
  · rw [hk, h.messagesOf_self]
    exact List.prefix_append _ _
  · rw [h.messagesOf_ne hk]

theorem Touch.sequence (h : Touch s held s' id old row msg) : s.sequence ≤ s'.sequence := by
  cases old with
  | none =>
      rw [(h.raised rfl).2.2]
      exact Nat.le_succ _
  | some r =>
      exact Nat.le_of_eq (h.kept (Option.some_ne_none r)).symm

/-- A message there is now was there, or is the one that was added. -/
theorem Touch.get?_message (h : Touch s held s' id old row msg) {mid : String} {m : MessageRow}
    (hm : s'.messages.get? mid = some m) : s.messages.get? mid = some m ∨
      msg = some m ∧ mid = messageId id ((messagesOf s id).length + 1) := by
  rw [Table.get?_eq_some, h.messages, List.mem_append] at hm
  rcases hm with hm | hm
  · exact .inl (Table.get?_eq_some.2 hm)
  · obtain ⟨m', hm', heq⟩ := Option.map_eq_some_iff.1 (Option.mem_toList.1 hm)
    cases heq
    exact .inr ⟨hm', rfl⟩

theorem Touch.get?_message_old (h : Touch s held s' id old row msg) {mid : String}
    {m : MessageRow} (hm : s.messages.get? mid = some m) : s'.messages.get? mid = some m := by
  rw [Table.get?_eq_some, h.messages]
  exact List.mem_append_left _ (Table.get?_eq_some.1 hm)

theorem Touch.numbered (h : Touch s held s' id old row msg) (hi : InOrder s) {k : String}
    {r : TicketRow} (hr : s'.tickets.get? k = some r) :
    ∃ n, n < s'.sequence ∧ k = formatId .support n 0 := by
  rw [h.tickets] at hr
  split at hr
  · next hk =>
      cases hold : old with
      | none =>
          obtain ⟨-, hid, hseq⟩ := h.raised hold
          exact ⟨s.sequence, by rw [hseq]; exact Nat.lt_succ_self _, hk.trans hid⟩
      | some r' =>
          obtain ⟨n, hn, heq⟩ := hi.numbered id r' (h.stands.trans hold)
          exact ⟨n, Nat.lt_of_lt_of_le hn h.sequence, hk.trans heq⟩
  · obtain ⟨n, hn, heq⟩ := hi.numbered k r hr
    exact ⟨n, Nat.lt_of_lt_of_le hn h.sequence, heq⟩

theorem Touch.untouched (h : Touch s held s' id old row msg) (hi : InOrder s)
    (hopen : row.status = .open_) : row.rating = none ∧
      ∀ m ∈ messagesOf s' id, m.2.from_ = .user := by
  have hstands := h.stands
  have hself := h.messagesOf_self
  cases h.legal with
  | raised _ _ status rating from_ =>
      refine ⟨rating, fun p hp => ?_⟩
      rw [hself, hi.silent hstands, List.nil_append] at hp
      obtain ⟨m, hm, heq⟩ := Option.map_eq_some_iff.1 (Option.mem_toList.1 hp)
      rw [← heq]
      exact from_ m hm
  | said row next m still edge from_ =>
      have hwas : row.status = .open_ := by
        rcases edge with heq | hedge
        · exact heq.symm.trans hopen
        · rw [show next = .open_ from hopen] at hedge
          exact absurd hedge not_open_of_edge
      obtain ⟨hrating, hfrom⟩ := hi.untouched id row hstands hwas
      refine ⟨hrating, fun p hp => ?_⟩
      rw [hself] at hp
      rcases List.mem_append.1 hp with hp | hp
      · exact hfrom p hp
      · rw [Option.map_some, Option.toList_some, List.mem_singleton] at hp
        rw [hp]
        exact from_ hopen
  | moved row next edge =>
      rw [show next = .open_ from hopen] at edge
      exact absurd edge not_open_of_edge
  | rated row rating ended =>
      rw [show row.status = .open_ from hopen] at ended
      cases ended

theorem Touch.each (h : Touch s held s' id old row msg) (hi : InOrder s) {k : String} {n : ℕ}
    (hn : 1 ≤ n) (hle : n ≤ (messagesOf s' k).length) :
    ∃ m, s'.messages.get? (messageId k n) = some m ∧ m.ticketId = k := by
  have hold : n ≤ (messagesOf s k).length →
      ∃ m, s'.messages.get? (messageId k n) = some m ∧ m.ticketId = k := by
    intro hle
    obtain ⟨m, hm, hid⟩ := hi.each k n hn hle
    exact ⟨m, h.get?_message_old hm, hid⟩
  by_cases hk : k = id
  · rw [hk] at hle hold ⊢
    rw [h.messagesOf_self] at hle
    cases hmsg : msg with
    | none =>
        rw [hmsg, Option.map_none, Option.toList_none, List.append_nil] at hle
        exact hold hle
    | some m =>
        rw [hmsg, Option.map_some, Option.toList_some, List.length_append,
          List.length_singleton] at hle
        rcases Nat.lt_or_ge (messagesOf s id).length n with hlt | hge
        · have heq : n = (messagesOf s id).length + 1 := by omega
          refine ⟨m, ?_, h.about m hmsg⟩
          rw [Table.get?_eq_some, h.messages, heq, hmsg]
          exact List.mem_append_right _ List.mem_cons_self
        · exact hold hge
  · rw [h.messagesOf_ne hk] at hle
    exact hold hle

theorem InOrder.touch (hi : InOrder s) (h : Touch s held s' id old row msg) : InOrder s' := by
  refine ⟨fun k r hr => h.numbered hi hr, fun mid m hm => ?_, fun k n hn hle => h.each hi hn hle,
    fun k r hr hopen => ?_⟩
  · rcases h.get?_message hm with hm | ⟨hmsg, hmid⟩
    · obtain ⟨hsome, n, hn, hle, heq⟩ := hi.about mid m hm
      refine ⟨?_, n, hn, hle.trans (h.messagesOf_prefix _).length_le, heq⟩
      rw [h.tickets]
      split
      · rfl
      · exact hsome
    · have hid := h.about m hmsg
      rw [hid]
      refine ⟨by rw [h.tickets, if_pos rfl]; rfl, (messagesOf s id).length + 1,
        Nat.le_add_left _ _, ?_, hmid⟩
      rw [h.messagesOf_self, hmsg, Option.map_some, Option.toList_some, List.length_append,
        List.length_singleton]
  · rw [h.tickets] at hr
    split at hr
    · next hk =>
        cases hr
        rw [hk]
        exact h.untouched hi hopen
    · next hk =>
        rw [h.messagesOf_ne hk]
        exact hi.untouched k r hr hopen

end Touch

/-! ## Where each transaction stands -/

/-- The ticket's row is held, and is this one. -/
structure Held (s : Desk) (held : List (Lock DeskLock)) (id : String) (row : TicketRow) :
    Prop where
  key : ⟨.ticket id, .update⟩ ∈ held
  stands : s.tickets.get? id = some row

/-- The next ticket's number is drawn. -/
structure Drawn (s : Desk) (held : List (Lock DeskLock)) (id : String) : Prop where
  key : ⟨.sequence, .noKeyUpdate⟩ ∈ held
  id : id = formatId .support s.sequence 0

section Shape

variable (s : Desk) (held : List (Lock DeskLock)) (write : Desk → Desk)

def RaiseShaped (sub : String) (body : RaiseTicketBody) : RaiseAt → Prop
  | .begun | .named _ => write = id
  | .numbered _ id => Drawn s held id ∧ write = drawTicket
  | .stored _ id => Drawn s held id ∧ ⟨.ticket id, .update⟩ ∈ held ∧
    write = fun s => insertTicket id (raisedRow sub body) (drawTicket s)
  | .counted _ id n => Drawn s held id ∧ ⟨.ticket id, .update⟩ ∈ held ∧ n = 0 ∧
    write = fun s => insertTicket id (raisedRow sub body) (drawTicket s)
  | .said id => Drawn s held id ∧ ⟨.ticket id, .update⟩ ∈ held ∧ ∃ who,
    write = fun s => appendMessage 0 (firstMessage id who body)
      (insertTicket id (raisedRow sub body) (drawTicket s))

def SayShaped (by_ : Speaker) (id body : String) : SayAt → Prop
  | .begun => write = fun x => x
  | .held row => Held s held id row ∧ by_.finds row ∧ write = fun x => x
  | .named row _ => Held s held id row ∧ by_.finds row ∧ by_.mayWrite row body ∧
    write = fun x => x
  | .counted row _ n => Held s held id row ∧ by_.finds row ∧ by_.mayWrite row body ∧
    n = (messagesOf s id).length ∧ write = fun x => x
  | .said row => Held s held id row ∧ by_.finds row ∧ by_.mayWrite row body ∧
    ∃ who n, n = (messagesOf s id).length ∧
      write = appendMessage n (by_.message id who body)
  | .moved => ∃ row, Held s held id row ∧ by_.finds row ∧ by_.mayWrite row body ∧
    ∃ who n, n = (messagesOf s id).length ∧
      write = fun s => setTicketStatus id (by_.next row.status)
        (appendMessage n (by_.message id who body) s)

def SetShaped (by_ : Mover) (id : String) (st : TicketStatus) : HoldAt → Prop
  | .begun => write = fun x => x
  | .held row => Held s held id row ∧ by_.finds row ∧ write = fun x => x
  | .written => ∃ row, Held s held id row ∧ by_.finds row ∧
    st ∈ SUPPORT_TRANSITIONS row.status ∧ write = setTicketStatus id st

def RateShaped (sub id : String) (rating : Rating) : HoldAt → Prop
  | .begun => write = fun x => x
  | .held row => Held s held id row ∧ row.byUser = sub ∧ write = fun x => x
  | .written => ∃ row, Held s held id row ∧ row.byUser = sub ∧ mayRate row.status = true ∧
    write = setRating id rating

end Shape

def DeskShaped (s : Desk) (x : Tx Desk DeskLock DeskTx) : Prop :=
  match x.at_ with
  | .raise sub body p => RaiseShaped s x.held x.write sub body p
  | .reply by_ id body p => SayShaped s x.held x.write by_ id body p
  | .setStatus by_ id st p => SetShaped s x.held x.write by_ id st p
  | .rate sub id rating p => RateShaped s x.held x.write sub id rating p

/-! ## Statement by statement -/

section Runs

variable {write : Desk → Desk} {name : String} {st : DeskStmt}

theorem Held.mono {id : String} {row : TicketRow} (h : Held s held id row) (hsub : held ⊆ held') :
    Held s held' id row := ⟨hsub h.key, h.stands⟩

theorem Drawn.mono {id : String} (h : Drawn s held id) (hsub : held ⊆ held') :
    Drawn s held' id := ⟨hsub h.key, h.id⟩

theorem Drawn.free {id : String} (h : Drawn s held id) (hi : InOrder s) :
    s.tickets.get? id = none := by
  rw [h.id]
  exact hi.unnumbered

theorem Held.found (held : List (Lock DeskLock)) {id : String} {row : TicketRow}
    {p : TicketRow → Bool}
    (h : (s.tickets.get? id).filter p = some row) :
    Held s (⟨.ticket id, .update⟩ :: held) id row ∧ p row = true := by
  obtain ⟨hget, hp⟩ := Option.filter_eq_some_iff.1 h
  exact ⟨⟨List.mem_cons_self, hget⟩, hp⟩

theorem RaiseShaped.runs (hi : InOrder s) {sub : String} {body : RaiseTicketBody} {p : RaiseAt}
    (h : RaiseShaped s held write sub body p)
    (hs : raiseStmt name (write s) sub body p = some st) :
    DeskShaped s ⟨st.next, st.locks ++ held, st.write ∘ write⟩ := by
  cases p with
  | begun =>
      obtain rfl : write = id := h
      simp only [raiseStmt, Option.ite_none_right_eq_some] at hs
      obtain ⟨-, hst⟩ := hs
      cases hst
      exact rfl
  | named who =>
      obtain rfl : write = id := h
      cases hs
      exact ⟨⟨List.mem_cons_self, rfl⟩, rfl⟩
  | numbered who id =>
      obtain ⟨hdrawn, rfl⟩ := h
      obtain ⟨t, -, rfl⟩ := Option.map_eq_some_iff.1 hs
      exact ⟨hdrawn.mono (List.subset_cons_self _ _), List.mem_cons_self, rfl⟩
  | stored who id =>
      obtain ⟨hdrawn, hkey, rfl⟩ := h
      simp only [raiseStmt, Option.ite_none_right_eq_some] at hs
      obtain ⟨-, hst⟩ := hs
      cases hst
      refine ⟨hdrawn, hkey, ?_, rfl⟩
      have hnone : messagesOf s id = [] := hi.silent (hdrawn.free hi)
      exact congrArg List.length hnone
  | counted who id n =>
      obtain ⟨hdrawn, hkey, rfl, rfl⟩ := h
      obtain ⟨t, -, rfl⟩ := Option.map_eq_some_iff.1 hs
      exact ⟨hdrawn.mono (List.subset_cons_self _ _), List.mem_cons_of_mem _ hkey, who, rfl⟩
  | said id => cases hs

theorem SayShaped.runs {by_ : Speaker} {id body : String} {p : SayAt}
    (h : SayShaped s held write by_ id body p)
    (hs : replyStmt name (write s) by_ id body p = some st) :
    DeskShaped s ⟨st.next, st.locks ++ held, st.write ∘ write⟩ := by
  cases p with
  | begun =>
      obtain rfl : write = fun x => x := h
      obtain ⟨row, hrow, rfl⟩ := Option.map_eq_some_iff.1 hs
      obtain ⟨hheld, hfinds⟩ := Held.found held hrow
      exact ⟨hheld, of_decide_eq_true hfinds, rfl⟩
  | held row =>
      obtain ⟨hheld, hfinds, rfl⟩ := h
      simp only [replyStmt, Option.ite_none_right_eq_some] at hs
      obtain ⟨hmay, hst⟩ := hs
      cases hst
      exact ⟨hheld, hfinds, hmay, rfl⟩
  | named row who =>
      obtain ⟨hheld, hfinds, hmay, rfl⟩ := h
      cases hs
      exact ⟨hheld, hfinds, hmay, rfl, rfl⟩
  | counted row who n =>
      obtain ⟨hheld, hfinds, hmay, hn, rfl⟩ := h
      obtain ⟨t, -, rfl⟩ := Option.map_eq_some_iff.1 hs
      exact ⟨hheld.mono (List.subset_cons_self _ _), hfinds, hmay, who, n, hn, rfl⟩
  | said row =>
      obtain ⟨hheld, hfinds, hmay, who, n, hn, rfl⟩ := h
      simp only [replyStmt, Option.ite_none_right_eq_some] at hs
      obtain ⟨-, hst⟩ := hs
      cases hst
      exact ⟨row, hheld.mono (List.subset_cons_self _ _), hfinds, hmay, who, n, hn, rfl⟩
  | moved => cases hs

theorem SetShaped.runs {by_ : Mover} {id : String} {to_ : TicketStatus} {p : HoldAt}
    (h : SetShaped s held write by_ id to_ p)
    (hs : setStatusStmt (write s) by_ id to_ p = some st) :
    DeskShaped s ⟨st.next, st.locks ++ held, st.write ∘ write⟩ := by
  cases p with
  | begun =>
      obtain rfl : write = fun x => x := h
      obtain ⟨row, hrow, rfl⟩ := Option.map_eq_some_iff.1 hs
      obtain ⟨hheld, hfinds⟩ := Held.found held hrow
      exact ⟨hheld, of_decide_eq_true hfinds, rfl⟩
  | held row =>
      obtain ⟨hheld, hfinds, rfl⟩ := h
      simp only [setStatusStmt, Option.ite_none_right_eq_some] at hs
      obtain ⟨⟨-, hedge⟩, hst⟩ := hs
      cases hst
      exact ⟨row, hheld.mono (List.subset_cons_self _ _), hfinds, hedge, rfl⟩
  | written => cases hs

theorem RateShaped.runs {sub id : String} {rating : Rating} {p : HoldAt}
    (h : RateShaped s held write sub id rating p)
    (hs : rateStmt (write s) sub id rating p = some st) :
    DeskShaped s ⟨st.next, st.locks ++ held, st.write ∘ write⟩ := by
  cases p with
  | begun =>
      obtain rfl : write = fun x => x := h
      obtain ⟨row, hrow, rfl⟩ := Option.map_eq_some_iff.1 hs
      obtain ⟨hheld, hmine⟩ := Held.found held hrow
      exact ⟨hheld, of_decide_eq_true hmine, rfl⟩
  | held row =>
      obtain ⟨hheld, hmine, rfl⟩ := h
      simp only [rateStmt, Option.ite_none_right_eq_some] at hs
      obtain ⟨hended, hst⟩ := hs
      cases hst
      exact ⟨row, hheld.mono (List.subset_cons_self _ _), hmine, hended, rfl⟩
  | written => cases hs

theorem DeskShaped.runs (hi : InOrder s) {x : Tx Desk DeskLock DeskTx} (h : DeskShaped s x)
    (hs : x.at_.stmt name (x.write s) = some st) : DeskShaped s (x.after st) := by
  obtain ⟨t, held, write⟩ := x
  cases t with
  | raise sub body p => exact RaiseShaped.runs hi h hs
  | reply by_ id body p => exact SayShaped.runs h hs
  | setStatus by_ id to_ p => exact SetShaped.runs h hs
  | rate sub id rating p => exact RateShaped.runs h hs

theorem deskShaped_begins {t : DeskTx} (ht : t.starts = true) : DeskShaped s (.fresh t) := by
  cases t with
  | raise sub body p => cases p <;> first | rfl | cases ht
  | reply by_ id body p => cases p <;> first | rfl | cases ht
  | setStatus by_ id to_ p => cases p <;> first | rfl | cases ht
  | rate sub id rating p => cases p <;> first | rfl | cases ht

end Runs

/-! ## What a commit does -/

/-- The person at a screen whose transaction it is. The desk is nobody's. -/
def DeskTx.asUser : DeskTx → Option String
  | .raise sub _ _ => some sub
  | .reply (.user sub) _ _ _ => some sub
  | .setStatus (.user sub) _ _ _ => some sub
  | .rate sub _ _ _ => some sub
  | .reply (.support _ _) _ _ _ | .setStatus .desk _ _ _ => none

section Commit

variable {id : String} {row : TicketRow}

theorem rows_appendMessage (hi : InOrder s) {m : MessageRow} {n : ℕ} (hm : m.ticketId = id)
    (hn : n = (messagesOf s id).length) : (appendMessage n m s).messages.rows =
      s.messages.rows ++ [(messageId id ((messagesOf s id).length + 1), m)] := by
  obtain ⟨t, ht⟩ := Table.insert?_of_free (hi.unsaid id) m
  unfold appendMessage
  dsimp only
  rw [hm, hn, ht, Option.getD_some, (Table.insert?_eq_some ht).2]

theorem touch_raised (hi : InOrder s) (hdrawn : Drawn s held id)
    (hkey : ⟨.ticket id, .update⟩ ∈ held) (sub : String) (body : RaiseTicketBody)
    (msg : Option MessageRow) (habout : ∀ m, msg = some m → m.ticketId = id)
    (hfrom : ∀ m, msg = some m → m.from_ = .user)
    (hs' : s'.tickets = (insertTicket id (raisedRow sub body) s).tickets)
    (hrows : s'.messages.rows = s.messages.rows ++
      (msg.map fun m => (messageId id ((messagesOf s id).length + 1), m)).toList)
    (hseq : s'.sequence = s.sequence + 1) :
    Touch s held s' id none (raisedRow sub body) msg where
  key := hkey
  stands := hdrawn.free hi
  tickets k := by
    rw [hs']
    exact Table.get?_insert_of_free (hdrawn.free hi) _ k
  messages := hrows
  about := habout
  raised _ := ⟨hdrawn.key, hdrawn.id, hseq⟩
  kept hno := absurd rfl hno
  legal := .raised _ msg rfl rfl hfrom

theorem get?_setTicketStatus (hrow : s.tickets.get? id = some row) (next : TicketStatus)
    (k : String) : (setTicketStatus id next s).tickets.get? k =
      if k = id then some { row with status := next } else s.tickets.get? k :=
  Table.get?_modify_of_get? hrow _ k

/-- A reply adds its message, and the ticket is where it leaves it. -/
theorem touch_said (hi : InOrder s) {by_ : Speaker} {body who : String} {n : ℕ}
    (hheld : Held s held id row) (hmay : by_.mayWrite row body)
    (hn : n = (messagesOf s id).length)
    (htickets : ∀ k, s'.tickets.get? k = if k = id then
      some { row with status := by_.next row.status } else s.tickets.get? k)
    (hmessages : s'.messages = (appendMessage n (by_.message id who body) s).messages)
    (hseq : s'.sequence = s.sequence) :
    Touch s held s' id (some row) { row with status := by_.next row.status }
      (some (by_.message id who body)) where
  key := hheld.key
  stands := hheld.stands
  tickets := htickets
  messages := by
    rw [hmessages]
    exact rows_appendMessage hi rfl hn
  about m hm := by
    cases hm
    rfl
  raised hno := by cases hno
  kept _ := hseq
  legal := by
    obtain ⟨-, hreply, hedge⟩ := hmay
    refine .said row _ _ (of_decide_eq_true hreply) hedge fun hopen => ?_
    cases by_ with
    | user sub => rfl
    | support sub sentWith =>
        cases sentWith with
        | some sent =>
            cases sent <;> cases hopen
        | none =>
            change (if row.status = .open_ then TicketStatus.withSupport else row.status) =
              .open_ at hopen
            split at hopen
            · cases hopen
            · next hno => exact absurd hopen hno

/-- The row is rewritten and nothing is said. -/
theorem touch_set {row' : TicketRow} (hheld : Held s held id row)
    (htickets : ∀ k, s'.tickets.get? k = if k = id then some row' else s.tickets.get? k)
    (hmessages : s'.messages = s.messages) (hseq : s'.sequence = s.sequence)
    (hlegal : Legal (some row) row' none) : Touch s held s' id (some row) row' none where
  key := hheld.key
  stands := hheld.stands
  tickets := htickets
  messages := by
    rw [hmessages]
    exact (List.append_nil _).symm
  about m hm := by cases hm
  raised hno := by cases hno
  kept _ := hseq
  legal := hlegal

/-- Whatever commits has touched one ticket, a person's own where it was a person's. -/
theorem DeskShaped.commit (hi : InOrder s) {x : Tx Desk DeskLock DeskTx} (h : DeskShaped s x)
    (hd : x.at_.done = true) : ∃ id old row msg, Touch s x.held (x.write s) id old row msg ∧
      ∀ sub, x.at_.asUser = some sub → ∀ r, old = some r → r.byUser = sub := by
  obtain ⟨t, held, write⟩ := x
  cases t with
  | raise sub body p =>
      have hnew : ∀ sub', DeskTx.asUser (.raise sub body p) = some sub' →
          ∀ r : TicketRow, none = some r → r.byUser = sub' := by
        intro sub' _ r hr
        cases hr
      cases p with
      | stored who id =>
          obtain ⟨hdrawn, hkey, rfl⟩ : Drawn s held id ∧ _ := h
          exact ⟨id, none, _, none, touch_raised hi hdrawn hkey sub body none
            (fun _ hm => by cases hm) (fun _ hm => by cases hm) rfl
            (List.append_nil _).symm rfl, hnew⟩
      | said id =>
          obtain ⟨hdrawn, hkey, who, rfl⟩ : Drawn s held id ∧ _ := h
          have hzero : messagesOf s id = [] := hi.silent (hdrawn.free hi)
          refine ⟨id, none, _, some (firstMessage id who body), touch_raised hi hdrawn hkey sub
            body _ (fun m hm => ?_) (fun m hm => ?_) rfl ?_ rfl, hnew⟩
          · cases hm
            rfl
          · cases hm
            rfl
          · exact rows_appendMessage (m := firstMessage id who body) hi rfl
              (congrArg List.length hzero).symm
      | _ => cases hd
  | reply by_ id body p =>
      have hmine : ∀ row, by_.finds row → ∀ sub,
          DeskTx.asUser (.reply by_ id body p) = some sub →
          ∀ r, some row = some r → r.byUser = sub := by
        intro row hfinds sub hsub r hr
        cases hr
        cases by_ with
        | user sub' =>
            cases hsub
            exact hfinds
        | support sub' sentWith => cases hsub
      cases p with
      | said row =>
          obtain ⟨hheld, hfinds, hmay, who, n, hn, rfl⟩ : Held s held id row ∧ _ := h
          have hnext : by_.next row.status = row.status := of_decide_eq_true hd
          refine ⟨id, some row, _, _, touch_said hi hheld hmay hn (fun k => ?_) rfl rfl,
            hmine row hfinds⟩
          change s.tickets.get? k = _
          split
          · next hk => rw [hk, hheld.stands, hnext]
          · rfl
      | moved =>
          obtain ⟨row, hheld, hfinds, hmay, who, n, hn, rfl⟩ :
            ∃ row, Held s held id row ∧ _ := h
          exact ⟨id, some row, _, _, touch_said hi hheld hmay hn
            (fun k => get?_setTicketStatus (s := appendMessage n (by_.message id who body) s)
              hheld.stands _ k) rfl rfl, hmine row hfinds⟩
      | _ => cases hd
  | setStatus by_ id to_ p =>
      cases p with
      | written =>
          obtain ⟨row, hheld, hfinds, hedge, rfl⟩ : ∃ row, Held s held id row ∧ _ := h
          refine ⟨id, some row, _, none, touch_set hheld (get?_setTicketStatus hheld.stands to_)
            rfl rfl (.moved row to_ hedge), fun sub hsub r hr => ?_⟩
          cases hr
          cases by_ with
          | user sub' =>
              cases hsub
              exact hfinds
          | desk => cases hsub
      | _ => cases hd
  | rate sub id rating p =>
      cases p with
      | written =>
          obtain ⟨row, hheld, hmine, hended, rfl⟩ : ∃ row, Held s held id row ∧ _ := h
          refine ⟨id, some row, _, none, touch_set hheld
            (fun k => Table.get?_modify_of_get? hheld.stands _ k) rfl rfl
            (.rated row rating hended), fun sub' hsub r hr => ?_⟩
          cases hr
          cases hsub
          exact hmine
      | _ => cases hd

end Commit

/-! ## What the others keep -/

section Stable

variable {id : String} {old : Option TicketRow} {row : TicketRow} {msg : Option MessageRow}

/-- A ticket another transaction holds is not the one touched. -/
theorem Touch.other (h : Touch s held s' id old row msg) (hapart : clash held held' = false)
    {k : String} (hkey : ⟨.ticket k, .update⟩ ∈ held') : k ≠ id := by
  rintro rfl
  rw [clash_of_mem h.key hkey rfl] at hapart
  cases hapart

theorem Touch.keeps (h : Touch s held s' id old row msg) (hapart : clash held held' = false)
    {k : String} {r : TicketRow} (hr : Held s held' k r) : Held s' held' k r := by
  refine ⟨hr.key, ?_⟩
  rw [h.tickets, if_neg (h.other hapart hr.key)]
  exact hr.stands

theorem Touch.said (h : Touch s held s' id old row msg) (hapart : clash held held' = false)
    {k : String} {r : TicketRow} (hr : Held s held' k r) {n : ℕ}
    (hn : n = (messagesOf s k).length) : n = (messagesOf s' k).length := by
  rw [h.messagesOf_ne (h.other hapart hr.key)]
  exact hn

theorem Touch.drawn (h : Touch s held s' id old row msg) (hapart : clash held held' = false)
    {k : String} (hk : Drawn s held' k) : Drawn s' held' k := by
  refine ⟨hk.key, ?_⟩
  cases hold : old with
  | none =>
      rw [clash_of_mem (h.raised hold).1 hk.key rfl] at hapart
      cases hapart
  | some r =>
      rw [h.kept (by rw [hold]; exact Option.some_ne_none r)]
      exact hk.id

theorem DeskShaped.stable {y : Tx Desk DeskLock DeskTx} (h : Touch s held s' id old row msg)
    (hapart : clash held y.held = false) (hy : DeskShaped s y) : DeskShaped s' y := by
  obtain ⟨t, held', write⟩ := y
  cases t with
  | raise sub body p =>
      cases p with
      | begun | named who => exact hy
      | numbered who id => exact ⟨h.drawn hapart hy.1, hy.2⟩
      | stored who id => exact ⟨h.drawn hapart hy.1, hy.2⟩
      | counted who id n => exact ⟨h.drawn hapart hy.1, hy.2⟩
      | said id => exact ⟨h.drawn hapart hy.1, hy.2⟩
  | reply by_ id body p =>
      cases p with
      | begun => exact hy
      | held r => exact ⟨h.keeps hapart hy.1, hy.2⟩
      | named r who => exact ⟨h.keeps hapart hy.1, hy.2⟩
      | counted r who n =>
          obtain ⟨hheld, hfinds, hmay, hn, hw⟩ := hy
          exact ⟨h.keeps hapart hheld, hfinds, hmay, h.said hapart hheld hn, hw⟩
      | said r =>
          obtain ⟨hheld, hfinds, hmay, who, n, hn, hw⟩ := hy
          exact ⟨h.keeps hapart hheld, hfinds, hmay, who, n, h.said hapart hheld hn, hw⟩
      | moved =>
          obtain ⟨r, hheld, hfinds, hmay, who, n, hn, hw⟩ := hy
          exact ⟨r, h.keeps hapart hheld, hfinds, hmay, who, n, h.said hapart hheld hn, hw⟩
  | setStatus by_ id to_ p =>
      cases p with
      | begun => exact hy
      | held r => exact ⟨h.keeps hapart hy.1, hy.2⟩
      | written =>
          obtain ⟨r, hheld, hrest⟩ := hy
          exact ⟨r, h.keeps hapart hheld, hrest⟩
  | rate sub id rating p =>
      cases p with
      | begun => exact hy
      | held r => exact ⟨h.keeps hapart hy.1, hy.2⟩
      | written =>
          obtain ⟨r, hheld, hrest⟩ := hy
          exact ⟨r, h.keeps hapart hheld, hrest⟩

end Stable

theorem desk_kept : desk.Kept (fun _ _ => True) InOrder DeskShaped where
  init s hs := by
    obtain ⟨tickets, messages, sequence⟩ := s
    obtain ⟨rfl, rfl⟩ := hs
    have hnone : ∀ {ρ : Type} (k : String) (r : ρ),
        (Table.empty : Table String ρ).get? k ≠ some r := by
      intro ρ k r hr
      cases hr
    refine ⟨fun id r hr => absurd hr (hnone id r), fun mid m hm => absurd hm (hnone mid m),
      fun id k hk hle => ?_, fun id r hr => absurd hr (hnone id r)⟩
    exact absurd (hk.trans hle) (Nat.not_succ_le_zero 0)
  begins _ _ _ ht := deskShaped_begins ht
  runs _ _ _ _ _ _ _ hi hx hs := hx.runs hi hs
  commits _ _ _ _ _ hi hx hd := by
    obtain ⟨id, old, row, msg, htouch, -⟩ := hx.commit hi hd
    exact hi.touch htouch
  stable _ _ _ _ _ _ _ _ _ hi hx hy hd hapart := by
    obtain ⟨id, old, row, msg, htouch, -⟩ := hx.commit hi hd
    exact DeskShaped.stable htouch hapart hy

/-! ## Over a run -/

/-- What a run leaves of a ticket and its conversation. -/
structure Onward (s s' : Desk) : Prop where
  walks : ∀ id r, s.tickets.get? id = some r → ∃ r', s'.tickets.get? id = some r' ∧
    r' = { r with status := r'.status, rating := r'.rating } ∧
    Relation.ReflTransGen (fun a b => b ∈ SUPPORT_TRANSITIONS a) r.status r'.status
  grows : ∀ id, messagesOf s id <+: messagesOf s' id
  closed : ∀ id r, s.tickets.get? id = some r → r.status = .closed →
    messagesOf s' id = messagesOf s id

theorem Onward.refl (s : Desk) : Onward s s :=
  ⟨fun _ r hr => ⟨r, hr, rfl, .refl⟩, fun _ => List.prefix_refl _, fun _ _ _ _ => rfl⟩

theorem closed_of_walk {a : TicketStatus}
    (h : Relation.ReflTransGen (fun a b => b ∈ SUPPORT_TRANSITIONS a) .closed a) :
    a = .closed := by
  induction h with
  | refl => rfl
  | tail _ hedge ih =>
      rw [ih] at hedge
      cases hedge

theorem Onward.trans {s'' : Desk} (h : Onward s s') (h' : Onward s' s'') : Onward s s'' := by
  refine ⟨fun id r hr => ?_, fun id => (h.grows id).trans (h'.grows id), fun id r hr hc => ?_⟩
  · obtain ⟨r', hr', heq, hwalk⟩ := h.walks id r hr
    obtain ⟨r'', hr'', heq', hwalk'⟩ := h'.walks id r' hr'
    refine ⟨r'', hr'', ?_, hwalk.trans hwalk'⟩
    rw [heq'.trans (congrArg (fun q : TicketRow =>
      { q with status := r''.status, rating := r''.rating }) heq)]
  · obtain ⟨r', hr', -, hwalk⟩ := h.walks id r hr
    rw [hc] at hwalk
    rw [h'.closed id r' hr' (closed_of_walk hwalk), h.closed id r hr hc]

section Touched

variable {id : String} {old : Option TicketRow} {row : TicketRow} {msg : Option MessageRow}

theorem Touch.onward (h : Touch s held s' id old row msg) : Onward s s' := by
  refine ⟨fun k r hr => ?_, h.messagesOf_prefix, fun k r hr hc => ?_⟩
  · rw [h.tickets]
    split
    · next hk =>
        rw [hk, h.stands] at hr
        subst hr
        refine ⟨row, rfl, ?_⟩
        cases h.legal with
        | said r next m still edge from_ =>
            refine ⟨rfl, ?_⟩
            rcases edge with heq | hedge
            · rw [heq]
            · exact .single hedge
        | moved r next edge => exact ⟨rfl, .single edge⟩
        | rated r rating ended => exact ⟨rfl, .refl⟩
    · exact ⟨r, hr, rfl, .refl⟩
  · by_cases hk : k = id
    · rw [hk, h.stands] at hr
      subst hr
      rw [hk, h.messagesOf_self]
      cases h.legal with
      | said r next m still edge from_ => exact absurd hc still
      | moved r next edge => exact List.append_nil _
      | rated r rating ended => exact List.append_nil _
    · exact h.messagesOf_ne hk

theorem Touch.own (h : Touch s held s' id old row msg) {sub : String}
    (hmine : ∀ r, old = some r → r.byUser = sub) {k : String} {r : TicketRow}
    (hr : s.tickets.get? k = some r) (hu : r.byUser ≠ sub) :
    s'.tickets.get? k = some r ∧ messagesOf s' k = messagesOf s k := by
  have hk : k ≠ id := by
    rintro rfl
    exact hu (hmine r (h.stands.symm.trans hr))
  rw [h.tickets, if_neg hk]
  exact ⟨hr, h.messagesOf_ne hk⟩

end Touched

section Worlds

variable {w w' : World Desk DeskLock DeskTx}

theorem onward_step (h : Database.Safe InOrder DeskShaped w) {e : TxEvent String DeskTx}
    (he : desk.step w e = some w') : Onward w.committed w'.committed := by
  cases e with
  | begin_ t =>
      obtain ⟨-, rfl⟩ := Database.step_begin he
      exact .refl _
  | run i c =>
      obtain ⟨x, st, -, -, -, rfl⟩ := Database.step_run he
      exact .refl _
  | commit i =>
      obtain ⟨x, hx, hd, rfl⟩ := Database.step_commit he
      obtain ⟨id, old, row, msg, htouch, -⟩ := (h.ok i x hx).commit h.inv hd
      exact htouch.onward
  | abort i =>
      obtain ⟨x, -, rfl⟩ := Database.step_abort he
      exact .refl _

theorem onward_run (h : Database.Safe InOrder DeskShaped w)
    (hrun : (desk.machine.startingAt w).Reach w') : Onward w.committed w'.committed := by
  have hboth : Onward w.committed w'.committed ∧ Database.Safe InOrder DeskShaped w' := by
    refine Machine.Reach.invariant (I := fun v => Onward w.committed v.committed ∧
      Database.Safe InOrder DeskShaped v) ?_ ?_ hrun
    · rintro v rfl
      exact ⟨.refl _, h⟩
    · intro v e v' _ hv he
      exact ⟨hv.1.trans (onward_step hv.2 he), hv.2.step desk_kept trivial he⟩
  exact hboth.1

/-- The transaction is about to store a row of its own numbering. -/
def DeskTx.stores : DeskTx → Bool
  | .raise _ _ (.numbered _ _) | .raise _ _ (.counted _ _ _) | .reply _ _ _ (.counted _ _ _) =>
    true
  | _ => false

/-- No primary key refuses it. -/
theorem DeskShaped.stored (hi : InOrder s) {x : Tx Desk DeskLock DeskTx} (h : DeskShaped s x)
    (hx : x.at_.stores = true) (name : String) :
    (x.at_.stmt name (x.write s)).isSome = true := by
  obtain ⟨t, held, write⟩ := x
  cases t with
  | raise sub body p =>
      cases p with
      | numbered who id =>
          obtain ⟨hdrawn, rfl⟩ : Drawn s held id ∧ _ := h
          obtain ⟨t, ht⟩ := Table.insert?_of_free (hdrawn.free hi) (raisedRow sub body)
          change (Option.map _ (s.tickets.insert? id (raisedRow sub body))).isSome = true
          rw [ht]
          rfl
      | counted who id n =>
          obtain ⟨hdrawn, -, rfl, rfl⟩ : Drawn s held id ∧ _ := h
          have hnext := hi.unsaid id
          rw [hi.silent (hdrawn.free hi)] at hnext
          have hfree : s.messages.get? (messageId id (0 + 1)) = none := hnext
          obtain ⟨t, ht⟩ := Table.insert?_of_free hfree (firstMessage id who body)
          change (Option.map _ (s.messages.insert? (messageId id (0 + 1))
            (firstMessage id who body))).isSome = true
          rw [ht]
          rfl
      | _ => cases hx
  | reply by_ id body p =>
      cases p with
      | counted row who n =>
          obtain ⟨-, -, -, rfl, rfl⟩ : Held s held id row ∧ _ := h
          obtain ⟨t, ht⟩ := Table.insert?_of_free (hi.unsaid id) (by_.message id who body)
          change (Option.map _ (s.messages.insert? _ (by_.message id who body))).isSome = true
          rw [ht]
          rfl
      | _ => cases hx
  | setStatus by_ id to_ p => cases hx
  | rate sub id rating p => cases hx

/-- In every run of the desk and its reporters: a ticket's messages are numbered from
one without a gap, and no insert meets a number that is taken; an open ticket has no
answer and no rating; a person's transaction leaves other people's tickets and
conversations as they are; and whatever follows, a ticket walks the table, its
conversation only grows, and once it is closed it says no more. -/
theorem desk_in_order (h : desk.machine.Reach w) :
    (∀ id k, 1 ≤ k → k ≤ (messagesOf w.committed id).length →
      ∃ m, w.committed.messages.get? (messageId id k) = some m ∧ m.ticketId = id) ∧
    (∀ i x name, w.tx i = some x → x.at_.stores = true →
      (x.at_.stmt name (x.write w.committed)).isSome = true) ∧
    (∀ id r, w.committed.tickets.get? id = some r → r.status = .open_ → r.rating = none ∧
      ∀ m ∈ messagesOf w.committed id, m.2.from_ = .user) ∧
    (∀ i x sub, w.tx i = some x → x.at_.done = true → x.at_.asUser = some sub →
      ∀ id r, w.committed.tickets.get? id = some r → r.byUser ≠ sub →
        (x.write w.committed).tickets.get? id = some r ∧
        messagesOf (x.write w.committed) id = messagesOf w.committed id) ∧
    ∀ w', (desk.machine.startingAt w).Reach w' → Onward w.committed w'.committed := by
  have hsafe : Database.Safe InOrder DeskShaped w := desk_kept.safe h
  have hi := hsafe.inv
  refine ⟨hi.each, fun i x name hx hstores => (hsafe.ok i x hx).stored hi hstores name,
    hi.untouched, ?_, fun w' hrun => onward_run hsafe hrun⟩
  intro i x sub hx hd hsub id r hr hu
  obtain ⟨k, old, row, msg, htouch, hmine⟩ := (hsafe.ok i x hx).commit hi hd
  exact htouch.own (hmine sub hsub) hr hu

/-- Two replies under way at once on a ticket that is closed after them. -/
def twoReplies : List (TxEvent String DeskTx) :=
  [.begin_ (.raise "u1" ⟨"billing", "Till", "It is stuck", "High", "/pos"⟩ .begun),
    .run 0 "Asha", .run 0 "", .run 0 "", .run 0 "", .run 0 "", .commit 0,
    .begin_ (.reply (.support "admin" none) "SUP-0044" "Looking" .begun),
    .begin_ (.reply (.user "u1") "SUP-0044" "Still stuck" .begun),
    .run 1 "", .run 1 "Desk", .run 1 "", .run 1 "", .run 1 "", .commit 1,
    .run 2 "", .run 2 "Asha", .run 2 "", .run 2 "", .commit 2,
    .begin_ (.setStatus (.user "u1") "SUP-0044" .closed .begun), .run 3 "", .run 3 "", .commit 3]

theorem desk_in_order_replies : ∃ w, desk.machine.Reach w ∧
    (messagesOf w.committed "SUP-0044").length = 3 ∧
    (∃ m, w.committed.messages.get? (messageId "SUP-0044" 3) = some m ∧
      m.ticketId = "SUP-0044") ∧
    ∃ r, w.committed.tickets.get? "SUP-0044" = some r ∧ r.status = .closed := by
  have hany : (desk.machine.run ⟨⟨.empty, .empty, 44⟩, []⟩ twoReplies).any (fun w =>
      decide ((messagesOf w.committed "SUP-0044").length = 3) &&
        (w.committed.tickets.get? "SUP-0044").any fun r => decide (r.status = .closed)) =
      true := by
    decide +kernel
  obtain ⟨w, hrun, hw⟩ := (Option.any_eq_true _ _).1 hany
  obtain ⟨hcount, hclosed⟩ := Bool.and_eq_true_iff.1 hw
  obtain ⟨r, hr, hst⟩ := (Option.any_eq_true _ _).1 hclosed
  have hinit : desk.machine.init ⟨⟨.empty, .empty, 44⟩, []⟩ := ⟨⟨rfl, rfl⟩, rfl⟩
  have hreach : desk.machine.Reach w := Machine.reach_run (.init hinit) hrun
  have hthree : (messagesOf w.committed "SUP-0044").length = 3 := of_decide_eq_true hcount
  exact ⟨w, hreach, hthree,
    (desk_in_order hreach).1 "SUP-0044" 3 (by decide) (by rw [hthree]),
    r, hr, of_decide_eq_true hst⟩

end Worlds

end Rch.Support
