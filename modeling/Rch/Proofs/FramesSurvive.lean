import Rch.Screen.Events

/-!
# A frame survives however its bytes are cut

No frame the pod writes has a blank line inside: its lines are not empty, and
what is quoted in it has its line ends escaped. So the reader cuts the text
where the pod ended its frames, and in no other place. The bytes of a frame cut
short are a few whole characters of it, and those hold no blank line either.

Read by its lines, each of the four frames does to the browser what it says.
-/

namespace Rch

open Kit

/-! ## Frames have no blank line inside -/

theorem newline_notMem_digits (n : ℕ) : '\n' ∉ Nat.toDigits 10 n := by
  intro h
  have := Nat.isDigit_of_mem_toDigits (b := 10) (by decide) (by decide) h
  revert this
  decide

theorem newline_notMem_quoteChar (c : Char) : '\n' ∉ quoteChar c := by
  have hhex : ∀ n < 16, hexChar n ≠ '\n' := by decide
  have hhigh (h : c.toNat < 32) := hhex (c.toNat / 16) (by omega)
  have hlow := hhex (c.toNat % 16) (by omega)
  unfold quoteChar
  split_ifs <;> simp_all [eq_comm]

theorem newline_notMem_quoted (s : String) : '\n' ∉ quoted s := by
  rw [quoted, List.mem_cons, List.mem_append, List.mem_flatMap]
  rintro (h | ⟨c, -, h⟩ | h)
  · exact absurd h (by decide)
  · exact newline_notMem_quoteChar c h
  · exact absurd h (by decide)

theorem newline_notMem_stringify (fields : List (String × String)) :
    '\n' ∉ stringify fields := by
  have hfields : '\n' ∉ stringifyFields fields := by
    induction fields with
    | nil => exact List.not_mem_nil
    | cons f fields ih =>
        obtain ⟨k, v⟩ := f
        cases fields with
        | nil =>
            simp [stringifyFields, newline_notMem_quoted]
        | cons g fields =>
            simp [stringifyFields, newline_notMem_quoted, ih]
  simp [stringify, hfields]

theorem numbered_unbroken {id : ℕ} {event : String} {data : List Char}
    (hevent : '\n' ∉ event.toList) (hdata : '\n' ∉ data) :
    Unbroken '\n' (numbered id event data) := by
  have hid : '\n' ∉ "id: ".toList ++ (toString id).toList := by
    simp [newline_notMem_digits id]
  have hline : '\n' ∉ "event: ".toList ++ event.toList := by
    simp [hevent]
  have hlast : Unbroken '\n' ("data: ".toList ++ data) :=
    unbroken_of_notMem (by simp [hdata])
  have hrest : Unbroken '\n' ("event: ".toList ++ event.toList ++ '\n' ::
      ("data: ".toList ++ data)) :=
    unbroken_line hline hlast (by simp) (by simp)
  exact unbroken_line hid hrest (by simp) (by simp)

theorem Notice.body_unbroken (w : Notice) : Unbroken '\n' w.body := by
  cases w with
  | retry hint =>
      have hline : '\n' ∉ "retry: ".toList ++ (toString hint.ms).toList := by
        simp [newline_notMem_digits]
      exact unbroken_of_notMem hline
  | ping => exact unbroken_of_notMem (by decide)
  | changed id c at_ =>
      exact numbered_unbroken (by decide) (newline_notMem_stringify _)
  | resync id at_ =>
      exact numbered_unbroken (by decide) (newline_notMem_stringify _)

theorem Notice.body_head (w : Notice) :
    ∃ c l, w.body = c :: l ∧ c ≠ byteOrderMark := by
  cases w with
  | retry hint => exact ⟨'r', _, rfl, by decide⟩
  | ping => exact ⟨':', _, rfl, by decide⟩
  | changed id c at_ => exact ⟨'i', _, rfl, by decide⟩
  | resync id at_ => exact ⟨'i', _, rfl, by decide⟩

/-! ## However the bytes are cut -/

/-- Reading chunk by chunk is decoding all of it and cutting the text once. -/
theorem foldl_read {σ : Type} (handle : σ → List Char → σ) (r : Reader σ)
    (chunks : List (List ℕ)) (hbuf : cutPair '\n' r.buf = none) :
    (chunks.foldl (Reader.read handle) r).state =
      (readChunk '\n' handle (r.state, r.buf)
        (r.dec.decode chunks.flatten).2).1 := by
  induction chunks generalizing r with
  | nil =>
      rw [List.foldl_nil, List.flatten_nil, Decoder.decode, readChunk,
        List.append_nil, drain_of_none hbuf]
  | cons chunk chunks ih =>
      have hkept : cutPair '\n' (Reader.read handle r chunk).buf = none :=
        cutPair_drain (Nat.le_refl _)
      rw [List.foldl_cons, ih _ hkept, List.flatten_cons, Decoder.decode_append,
        ← readChunk_append]
      rfl

def textOf (ws : List Notice) : List Char := ws.flatMap Notice.text

theorem textOf_written (ws : List Notice) :
    textOf ws = written '\n' (ws.map Notice.body) := by
  rw [written, List.flatMap_map]
  rfl

theorem textOf_unmarked (ws : List Notice) : Decoder.Unmarked false (textOf ws) := by
  refine .inr ?_
  cases ws with
  | nil => exact Option.some_ne_none _ |>.symm
  | cons w ws =>
      obtain ⟨c, l, hbody, hc⟩ := w.body_head
      rw [textOf, List.flatMap_cons, Notice.text, hbody]
      exact fun h => hc (Option.some.inj h)

/-- The frames are handled each once and in order, whatever handles them. -/
theorem read_whole {σ : Type} (handle : σ → List Char → σ) (s : σ)
    (ws : List Notice) (chunks : List (List ℕ))
    (h : chunks.flatten = utf8 (textOf ws)) :
    (chunks.foldl (Reader.read handle) (.open_ s)).state =
      ws.foldl (fun s w => handle s w.body) s := by
  have hdecode : (Decoder.fresh.decode (utf8 (textOf ws))).2 = textOf ws := by
    rw [Decoder.fresh, Decoder.decode_utf8 _ _ (textOf_unmarked ws)]
  have hframes : ∀ f ∈ ws.map Notice.body, Unbroken '\n' f := by
    intro f hf
    obtain ⟨w, -, rfl⟩ := List.mem_map.1 hf
    exact w.body_unbroken
  have hread := readChunk_written handle (s := s) (p := []) hframes
    rfl
  rw [foldl_read handle _ chunks rfl, h]
  change (readChunk '\n' handle (s, []) (Decoder.fresh.decode _).2).1 = _
  rw [hdecode, textOf_written, ← List.append_nil (written ..), hread,
    List.foldl_map]

/-- A frame that is cut short is not handled at all. -/
theorem read_cut {σ : Type} (handle : σ → List Char → σ) (s : σ)
    (ws : List Notice) (w : Notice) (k : ℕ) (chunks : List (List ℕ))
    (hk : k < (utf8 w.text).length)
    (h : chunks.flatten = utf8 (textOf ws) ++ (utf8 w.text).take k) :
    (chunks.foldl (Reader.read handle) (.open_ s)).state =
      ws.foldl (fun s w => handle s w.body) s := by
  have hunmarked : Decoder.Unmarked (false || !(textOf ws).isEmpty) w.text := by
    cases hempty : (textOf ws).isEmpty with
    | false => exact .inl rfl
    | true =>
        obtain ⟨c, l, hbody, hc⟩ := w.body_head
        refine .inr ?_
        rw [Notice.text, hbody]
        exact fun h => hc (Option.some.inj h)
  obtain ⟨j, hj, hcut⟩ := Decoder.decode_take _ _ hunmarked k hk
  have hdecode : (Decoder.fresh.decode
      (utf8 (textOf ws) ++ (utf8 w.text).take k)).2 =
        textOf ws ++ w.text.take j := by
    rw [Decoder.decode_append, Decoder.fresh,
      Decoder.decode_utf8 _ _ (textOf_unmarked ws), hcut]
  have hframes : ∀ f ∈ ws.map Notice.body, Unbroken '\n' f := by
    intro f hf
    obtain ⟨w, -, rfl⟩ := List.mem_map.1 hf
    exact w.body_unbroken
  have hshort : cutPair '\n' (w.text.take j) = none := by
    refine cutPair_short w.body_unbroken ?_
    have htext : w.text = (w.body ++ ['\n']) ++ ['\n'] := by
      rw [Notice.text, List.append_assoc]
      rfl
    rw [htext, List.length_append] at hj
    rw [htext, List.take_append_of_le_length (Nat.le_of_lt_succ hj)]
    exact List.take_prefix ..
  have hread := readChunk_written handle (s := s) hframes hshort
  rw [foldl_read handle _ chunks rfl, h]
  change (readChunk '\n' handle (s, []) (Decoder.fresh.decode _).2).1 = _
  rw [hdecode, textOf_written, hread, List.foldl_map]

/-! ## What each frame says -/

def Notice.heard (s : Heard) : Notice → Heard
  | .retry hint => { s with retryHintMs := some hint.ms }
  | .ping => s
  | .changed id c _ =>
    { s with
      lastEventId := some (toString id)
      pending := if c ∈ s.pending then s.pending else s.pending ++ [c]
      flush := true }
  | .resync id _ =>
    { s with
      lastEventId := some (toString id)
      wantsSnapshot := true
      flush := true }

theorem line_parts {f v : List Char} (hf : ':' ∉ f) :
    fieldOf (f ++ ':' :: ' ' :: v) = f ∧
      valueOf (f ++ ':' :: ' ' :: v) = v := by
  have hkeep : ∀ c ∈ f, (c != ':') = true := by
    intro c hc
    rw [bne_iff_ne]
    rintro rfl
    exact hf hc
  constructor
  · rw [fieldOf, List.takeWhile_append_of_pos hkeep]
    simp
  · rw [valueOf, List.dropWhile_append_of_pos hkeep]
    rfl

/-- A line that has a field is not skipped. -/
theorem line_kept {f v : List Char} (hf : ':' ∉ f) (hne : f ≠ []) :
    ¬((f ++ ':' :: ' ' :: v).head? = some ':' ∨ f ++ ':' :: ' ' :: v = []) := by
  cases f with
  | nil => exact absurd rfl hne
  | cons c f =>
      rintro (h | h)
      · exact hf (Option.some.inj h ▸ List.mem_cons_self)
      · cases h

theorem onLine_id (s : Heard) (l : FrameLines) (id : ℕ) :
    onLine (s, l) ("id: ".toList ++ (toString id).toList) =
      ({ s with lastEventId := some (toString id) }, l) := by
  have hf : ':' ∉ "id".toList := by decide
  have hline : "id: ".toList ++ (toString id).toList =
      "id".toList ++ ':' :: ' ' :: (toString id).toList := by simp
  obtain ⟨hfield, hvalue⟩ := line_parts (v := (toString id).toList) hf
  rw [hline, onLine, if_neg (line_kept hf (by decide)), hfield, hvalue, if_pos rfl,
    String.ofList_toList]

theorem onLine_event (s : Heard) (l : FrameLines) (event : String) :
    onLine (s, l) ("event: ".toList ++ event.toList) =
      (s, { l with event := event.toList }) := by
  have hf : ':' ∉ "event".toList := by decide
  have hline : "event: ".toList ++ event.toList =
      "event".toList ++ ':' :: ' ' :: event.toList := by simp
  obtain ⟨hfield, hvalue⟩ := line_parts (v := event.toList) hf
  rw [hline, onLine, if_neg (line_kept hf (by decide)), hfield, hvalue,
    if_neg (by decide), if_pos rfl]

theorem onLine_data (s : Heard) (l : FrameLines) (data : List Char) :
    onLine (s, l) ("data: ".toList ++ data) =
      (s, { l with data := l.data ++ [data] }) := by
  have hf : ':' ∉ "data".toList := by decide
  have hline : "data: ".toList ++ data = "data".toList ++ ':' :: ' ' :: data := by
    simp
  obtain ⟨hfield, hvalue⟩ := line_parts (v := data) hf
  rw [hline, onLine, if_neg (line_kept hf (by decide)), hfield, hvalue,
    if_neg (by decide), if_neg (by decide), if_pos rfl]

theorem onLine_retry (s : Heard) (l : FrameLines) (hint : RetryMs) :
    onLine (s, l) ("retry: ".toList ++ (toString hint.ms).toList) =
      ({ s with retryHintMs := some hint.ms }, l) := by
  have hf : ':' ∉ "retry".toList := by decide
  have hline : "retry: ".toList ++ (toString hint.ms).toList =
      "retry".toList ++ ':' :: ' ' :: (toString hint.ms).toList := by simp
  have hsmall : hint.ms < 2 ^ 53 := by
    have := hint.range
    omega
  obtain ⟨hfield, hvalue⟩ := line_parts (v := (toString hint.ms).toList) hf
  rw [hline, onLine, if_neg (line_kept hf (by decide)), hfield, hvalue,
    if_neg (by decide), if_neg (by decide), if_neg (by decide), if_pos rfl,
    String.ofList_toList, number_toString hsmall]

theorem splitOn_numbered {id : ℕ} {event : String} {data : List Char}
    (hevent : '\n' ∉ event.toList) (hdata : '\n' ∉ data) :
    (numbered id event data).splitOn '\n' =
      ["id: ".toList ++ (toString id).toList,
        "event: ".toList ++ event.toList, "data: ".toList ++ data] := by
  have hid : '\n' ∉ "id: ".toList ++ (toString id).toList := by
    simp [newline_notMem_digits id]
  have hline : '\n' ∉ "event: ".toList ++ event.toList := by simp [hevent]
  have hlast : '\n' ∉ "data: ".toList ++ data := by simp [hdata]
  rw [numbered, List.splitOn_append_cons_self_of_not_mem hid,
    List.splitOn_append_cons_self_of_not_mem hline,
    List.splitOn_eq_singleton hlast]

theorem foldl_numbered {id : ℕ} {event : String} {data : List Char} (s : Heard)
    (hevent : '\n' ∉ event.toList) (hdata : '\n' ∉ data) :
    ((numbered id event data).splitOn '\n').foldl onLine
        (s, ⟨"message".toList, []⟩) =
      ({ s with lastEventId := some (toString id) },
        ⟨event.toList, [data]⟩) := by
  rw [splitOn_numbered hevent hdata, List.foldl_cons, List.foldl_cons,
    List.foldl_cons, List.foldl_nil, onLine_id, onLine_event, onLine_data]
  rfl

theorem eventNotice_changed (c : Collection) (at_ : String) :
    eventNotice (.obj [("collection", .str c.text), ("at", .str at_)]) =
      some c := by
  have hkeys : ([("collection", Json.str c.text), ("at", .str at_)].all
      fun f => ["collection", "at"].contains f.1) = true := by simp
  rw [eventNotice, if_pos hkeys]
  exact collectionOf_text c

theorem dispatch_message (s : Heard) : dispatch s ⟨"message".toList, []⟩ = s := by
  rw [dispatch, if_neg (by decide), if_pos (.inr rfl)]

theorem dispatch_resync (s : Heard) (data : List (List Char)) :
    dispatch s ⟨"resync".toList, data⟩ =
      { s with wantsSnapshot := true, flush := true } := by
  rw [dispatch, if_pos rfl]

theorem dispatch_changed (s : Heard) (c : Collection) (at_ : String) :
    dispatch s ⟨"changed".toList,
        [stringify [("collection", c.text), ("at", at_)]]⟩ =
      { s with
        pending := if c ∈ s.pending then s.pending else s.pending ++ [c]
        flush := true } := by
  have hparse : parseJson (stringify [("collection", c.text), ("at", at_)]) =
      some (.obj [("collection", .str c.text), ("at", .str at_)]) :=
    parseJson_stringify (by simp) (by simp)
  have hdata : (['\n'].intercalate
      [stringify [("collection", c.text), ("at", at_)]]) =
      stringify [("collection", c.text), ("at", at_)] := by
    simp
  have hevent : ¬("changed".toList = "resync".toList) := by decide
  rw [dispatch, if_neg hevent, if_neg (by simp), hdata, hparse,
    Option.bind_some, eventNotice_changed]

theorem onFrame_body (s : Heard) (w : Notice) : onFrame s w.body = w.heard s := by
  cases w with
  | retry hint =>
      have hline : '\n' ∉ "retry: ".toList ++ (toString hint.ms).toList := by
        simp [newline_notMem_digits]
      change onFrame s ("retry: ".toList ++ (toString hint.ms).toList) = _
      rw [onFrame, List.splitOn_eq_singleton hline, List.foldl_cons,
        List.foldl_nil, onLine_retry, dispatch_message]
      rfl
  | ping =>
      have hline : '\n' ∉ ": ping".toList := by decide
      have hskip : onLine (s, ⟨"message".toList, []⟩) ": ping".toList =
          (s, ⟨"message".toList, []⟩) := by
        rw [onLine, if_pos (.inl (by decide))]
      change onFrame s ": ping".toList = _
      rw [onFrame, List.splitOn_eq_singleton hline, List.foldl_cons,
        List.foldl_nil, hskip, dispatch_message]
      rfl
  | changed id c at_ =>
      change onFrame s (numbered id "changed" _) = _
      rw [onFrame, foldl_numbered s (by decide) (newline_notMem_stringify _),
        dispatch_changed]
      rfl
  | resync id at_ =>
      change onFrame s (numbered id "resync" _) = _
      rw [onFrame, foldl_numbered s (by decide) (newline_notMem_stringify _),
        dispatch_resync]
      rfl

/-! ## The text is the feed's -/

/-- The frame of the feed that a text stands for. A heartbeat is none. -/
def Notice.frame : Notice → Option Frame
  | .retry _ => some .retry
  | .ping => none
  | .changed id c _ => some (.changed id c)
  | .resync id _ => some (.resync id)

/-- What the browser has heard is what the feed has it hear. -/
structure Shows (s : Heard) (f : Feed) : Prop where
  lastEventId : s.lastEventId = f.lastEventId.map toString
  pending : ∀ c, c ∈ s.pending ↔ c ∈ f.pending
  wantsSnapshot : s.wantsSnapshot = f.wantsSnapshot
  flush : s.flush = f.flush

/-- The feed after a frame, a heartbeat leaving it as it was. -/
def Notice.fed (f : Feed) (w : Notice) : Feed := w.frame.elim f f.onFrame

theorem Shows.heard {s : Heard} {f : Feed} (h : Shows s f) (w : Notice) :
    Shows (w.heard s) (w.fed f) := by
  cases w with
  | retry hint => exact ⟨h.lastEventId, h.pending, h.wantsSnapshot, h.flush⟩
  | ping => exact h
  | changed id c at_ =>
      refine ⟨rfl, fun c' => ?_, h.wantsSnapshot, rfl⟩
      change c' ∈ (if c ∈ s.pending then s.pending else s.pending ++ [c]) ↔
        c' ∈ f.pending ++ [c]
      rw [List.mem_append, List.mem_singleton, ← h.pending]
      split
      · next hc =>
          constructor
          · exact .inl
          · rintro (h | rfl)
            · exact h
            · exact hc
      · rw [List.mem_append, List.mem_singleton]
  | resync id at_ => exact ⟨rfl, h.pending, rfl, rfl⟩

theorem Shows.foldl {s : Heard} {f : Feed} (h : Shows s f) (ws : List Notice) :
    Shows (ws.foldl Notice.heard s) (ws.foldl Notice.fed f) := by
  induction ws generalizing s f with
  | nil => exact h
  | cons w ws ih => exact ih (h.heard w)

/-! ## Every frame, once and in order -/

/-- However the bytes of the frames are cut into chunks, the browser handles
each frame once and in order, and comes to what the frames say one at a time.
Where the bytes end inside a frame, it has handled the frames before it and
nothing of the cut one. -/
theorem frames_survive (s : Heard) (ws : List Notice)
    (chunks : List (List ℕ)) :
    (chunks.flatten = utf8 (textOf ws) →
      (∀ (σ : Type) (handle : σ → List Char → σ) (s₀ : σ),
        (chunks.foldl (Reader.read handle) (.open_ s₀)).state =
          ws.foldl (fun s w => handle s w.body) s₀) ∧
      (chunks.foldl (Reader.read onFrame) (.open_ s)).state =
        ws.foldl Notice.heard s) ∧
    ∀ (w : Notice) (k : ℕ), k < (utf8 w.text).length →
      chunks.flatten = utf8 (textOf ws) ++ (utf8 w.text).take k →
      (∀ (σ : Type) (handle : σ → List Char → σ) (s₀ : σ),
        (chunks.foldl (Reader.read handle) (.open_ s₀)).state =
          ws.foldl (fun s w => handle s w.body) s₀) ∧
      (chunks.foldl (Reader.read onFrame) (.open_ s)).state =
        ws.foldl Notice.heard s := by
  have hsaid : ws.foldl (fun s w => onFrame s w.body) s =
      ws.foldl Notice.heard s := by
    congr 1
    funext s w
    exact onFrame_body s w
  refine ⟨fun h => ⟨fun σ handle s₀ => read_whole handle s₀ ws chunks h, ?_⟩,
    fun w k hk h => ⟨fun σ handle s₀ => read_cut handle s₀ ws w k chunks hk h, ?_⟩⟩
  · rw [read_whole onFrame s ws chunks h, hsaid]
  · rw [read_cut onFrame s ws w k chunks hk h, hsaid]

/-! A burst of frames, a byte at a time, and the same with half a frame
behind it. -/

def burst : List Notice :=
  [.retry ⟨1000, by decide⟩, .changed 7 .req "2026-09-04", .ping,
    .changed 8 .req "2026-09-05", .resync 9 "2026-09-06"]

def silent : Heard := ⟨none, none, [], false, false⟩

theorem frames_survive_burst :
    (((utf8 (textOf burst)).map fun b => [b]).foldl (Reader.read onFrame)
        (.open_ silent)).state = ⟨some "9", some 1000, [.req], true, true⟩ ∧
    ([utf8 (textOf burst), (utf8 Notice.ping.text).take 7].foldl
        (Reader.read onFrame) (.open_ silent)).state =
      ⟨some "9", some 1000, [.req], true, true⟩ := by
  have hbytes : ((utf8 (textOf burst)).map fun b => [b]).flatten =
      utf8 (textOf burst) := by
    rw [← List.flatMap_def, List.flatMap_singleton']
  have hsaid : burst.foldl Notice.heard silent =
      ⟨some "9", some 1000, [.req], true, true⟩ := rfl
  constructor
  · rw [((frames_survive silent burst _).1 hbytes).2, hsaid]
  · rw [((frames_survive silent burst _).2 .ping 7 (by decide) (by
      rw [List.flatten_cons, List.flatten_cons, List.flatten_nil,
        List.append_nil])).2, hsaid]

end Rch
