import Rch.Api.PayerFile
import Mathlib.Data.List.DropRight
import Mathlib.Data.List.Forall2
import Mathlib.Data.List.TakeWhile

/-!
# A roster file reads back what was written

A written line ends in a quote or in the last character of a trimmed name, so
the carriage return a line ending may take with it is never the line's own: a
written line comes out of the cut as it went in. A blank line may lose one and
is still blank. After that the file is read line by line: the header on the
first line that carries anything, a row on every other, nothing on the rest.
-/

namespace Rch

open Kit

/-! ## Trimmed text -/

theorem trim_toList (s : String) :
    (trim s).toList = (s.toList.dropWhile isBlank).rdropWhile isBlank :=
  String.toList_ofList

theorem trim_eq_empty {s : String} :
    trim s = "" ↔ s.toList.all isBlank = true := by
  rw [← String.toList_inj, trim_toList, String.toList_empty,
    List.rdropWhile_eq_nil_iff, List.all_eq_true]
  constructor
  · intro h c hc
    rw [← List.takeWhile_append_dropWhile (p := isBlank) (l := s.toList),
      List.mem_append] at hc
    rcases hc with hc | hc
    · exact List.mem_takeWhile_imp hc
    · exact h c hc
  · intro h c hc
    exact h c (List.IsSuffix.mem hc (List.dropWhile_suffix isBlank))

/-- A trimmed text does not end in a blank. -/
theorem getLast_of_trimmed {s : String} (htrim : trim s = s) {c : Char}
    (hc : s.toList.getLast? = some c) : isBlank c = false := by
  have hself : (s.toList.dropWhile isBlank).rdropWhile isBlank = s.toList := by
    rw [← trim_toList, htrim]
  have hne : (s.toList.dropWhile isBlank).rdropWhile isBlank ≠ [] := by
    rw [hself]
    intro hnil
    rw [hnil] at hc
    cases hc
  have hlast := List.rdropWhile_last_not isBlank (s.toList.dropWhile isBlank) hne
  have heq : s.toList.getLast? =
      some (((s.toList.dropWhile isBlank).rdropWhile isBlank).getLast hne) := by
    rw [← List.getLast?_eq_some_getLast hne, hself]
  rw [heq] at hc
  rw [← Option.some.inj hc]
  exact Bool.eq_false_iff.2 hlast

/-! ## What is written -/

def PayerCsvRow.fields (r : PayerCsvRow) : List String :=
  [r.kind.word, r.id, r.name]

def csvLine (fields : List String) : List Char :=
  Csv.renderLine ',' '"' (fields.map String.toList)

inductive Eol
  | lf | crlf
deriving DecidableEq

def Eol.text : Eol → List Char
  | .lf => ['\n']
  | .crlf => ['\r', '\n']

def fileText (first : List Char) (rest : List (Eol × List Char)) : List Char :=
  first ++ rest.flatMap fun l => l.1.text ++ l.2

/-- A row the roster can hold: an id and a name, trimmed and on one line. -/
structure PayerCsvRow.Tidy (r : PayerCsvRow) : Prop where
  id_ne : r.id ≠ ""
  name_ne : r.name ≠ ""
  id_trimmed : trim r.id = r.id
  name_trimmed : trim r.name = r.name
  id_line : '\n' ∉ r.id.toList
  name_line : '\n' ∉ r.name.toList

/-! ## A line -/

theorem splitCsvLine_csvLine {fields : List String} (hne : fields ≠ [])
    (htrim : ∀ f ∈ fields, trim f = f) :
    splitCsvLine (String.ofList (csvLine fields)) = fields := by
  unfold splitCsvLine csvLine
  rw [String.toList_ofList, Csv.split_renderLine (by decide)
    (by rwa [Ne, List.map_eq_nil_iff]), List.map_map]
  calc fields.map ((fun f => trim (String.ofList f)) ∘ String.toList)
      = fields.map id := List.map_congr_left fun f hf => by
        rw [Function.comp_apply, String.ofList_toList, htrim f hf, id_eq]
    _ = fields := List.map_id fields

theorem trim_word (k : PayerKind) : trim k.word = k.word := by
  cases k <;> decide

theorem payerKindOf_word (k : PayerKind) : payerKindOf k.word = some k := by
  cases k <;> decide

variable {r : PayerCsvRow}

theorem PayerCsvRow.Tidy.trimmed (h : r.Tidy) : ∀ f ∈ r.fields, trim f = f := by
  intro f hf
  rcases List.mem_cons.1 hf with rfl | hf
  · exact trim_word r.kind
  · rcases List.mem_cons.1 hf with rfl | hf
    · exact h.id_trimmed
    · rw [List.mem_singleton.1 hf]
      exact h.name_trimmed

theorem PayerCsvRow.Tidy.splitCsvLine (h : r.Tidy) :
    Rch.splitCsvLine (String.ofList (csvLine r.fields)) = r.fields :=
  splitCsvLine_csvLine (List.cons_ne_nil _ _) h.trimmed

theorem PayerCsvRow.Tidy.check (h : r.Tidy) :
    checkPayerRow r.kind.word r.id r.name = .ok r := by
  unfold checkPayerRow
  rw [payerKindOf_word]
  dsimp only
  rw [h.id_trimmed, h.name_trimmed, if_neg h.id_ne, if_neg h.name_ne]

theorem csvLine_row (r : PayerCsvRow) :
    csvLine r.fields = r.kind.word.toList ++ ',' :: csvLine [r.id, r.name] := by
  unfold csvLine PayerCsvRow.fields
  rw [List.map_cons, List.map_cons, Csv.renderLine_cons]
  have hplain : Csv.renderField ',' '"' r.kind.word.toList = r.kind.word.toList := by
    cases r.kind <;> decide
  rw [hplain, ← List.map_cons]

theorem not_skipped_row (r : PayerCsvRow) :
    skipped (String.ofList (csvLine r.fields)) = false := by
  obtain ⟨c, word, hword, hblank, hhash⟩ : ∃ c word,
      r.kind.word.toList = c :: word ∧ isBlank c = false ∧ c ≠ '#' := by
    cases r.kind with
    | staff => exact ⟨'s', "taff".toList, by decide, by decide, by decide⟩
    | dept => exact ⟨'d', "ept".toList, by decide, by decide, by decide⟩
    | doctor => exact ⟨'d', "octor".toList, by decide, by decide, by decide⟩
  unfold skipped
  rw [String.toList_ofList, csvLine_row, hword, List.cons_append,
    List.dropWhile_cons_of_neg (by rw [hblank]; decide), List.head?_cons,
    Bool.or_eq_false_iff]
  constructor
  · rw [decide_eq_false_iff_not, trim_eq_empty, String.toList_ofList,
      List.all_cons, hblank, Bool.false_and]
    decide
  · exact beq_false_of_ne fun h => hhash (Option.some.inj h)

/-! ## The cut -/

theorem splitLines_last {l : List Char} (h : '\n' ∉ l) : splitLines l = [l] := by
  induction l with
  | nil => rfl
  | cons c l ih =>
      rw [List.mem_cons, not_or] at h
      cases l with
      | nil => rw [splitLines, if_neg (Ne.symm h.1)]
      | cons c' l =>
          have hc' : c' ≠ '\n' := fun heq => h.2 (heq ▸ List.mem_cons_self)
          rw [splitLines, if_neg (fun hcr => hc' hcr.2), if_neg (Ne.symm h.1),
            ih h.2]

/-- What the cut leaves of a line: at most a carriage return is missing. -/
def Cut (l' l : List Char) : Prop := l' = l ∨ l = l' ++ ['\r']

theorem splitLines_line {l : List Char} (h : '\n' ∉ l) (e : Eol)
    (text : List Char) :
    ∃ l', Cut l' l ∧
      splitLines (l ++ (e.text ++ text)) = l' :: splitLines text := by
  induction l with
  | nil =>
      refine ⟨[], .inl rfl, ?_⟩
      cases e with
      | lf =>
          cases text with
          | nil => rfl
          | cons c text =>
              change splitLines ('\n' :: c :: text) = _
              rw [splitLines, if_neg (fun hcr => absurd hcr.1 (by decide)),
                if_pos rfl]
      | crlf =>
          change splitLines ('\r' :: '\n' :: text) = _
          rw [splitLines, if_pos ⟨rfl, rfl⟩]
  | cons c l ih =>
      rw [List.mem_cons, not_or] at h
      obtain ⟨l', hcut, hsplit⟩ := ih h.2
      obtain ⟨c', tail, htail⟩ : ∃ c' tail, l ++ (e.text ++ text) = c' :: tail := by
        cases l with
        | cons c' l => exact ⟨c', l ++ (e.text ++ text), rfl⟩
        | nil =>
            cases e with
            | lf => exact ⟨'\n', text, rfl⟩
            | crlf => exact ⟨'\r', '\n' :: text, rfl⟩
      rw [List.cons_append, htail, splitLines]
      by_cases hcr : c = '\r' ∧ c' = '\n'
      · -- the ending takes the line's own last character with it
        rw [if_pos hcr]
        obtain ⟨rfl, rfl⟩ := hcr
        cases l with
        | cons d l =>
            have hd : d = '\n' := (List.cons.inj htail).1
            exact absurd List.mem_cons_self (hd ▸ h.2)
        | nil =>
            cases e with
            | crlf => exact absurd (List.cons.inj htail).1 (by decide)
            | lf => exact ⟨[], .inr rfl, by rw [← (List.cons.inj htail).2]; rfl⟩
      · rw [if_neg hcr, if_neg (Ne.symm h.1), ← htail, hsplit]
        refine ⟨c :: l', ?_, rfl⟩
        rcases hcut with rfl | rfl
        · exact .inl rfl
        · exact .inr rfl

theorem splitLines_fileText (first : List Char) (rest : List (Eol × List Char))
    (h : ∀ l ∈ first :: rest.map Prod.snd, '\n' ∉ l) :
    List.Forall₂ Cut (splitLines (fileText first rest))
      (first :: rest.map Prod.snd) := by
  induction rest generalizing first with
  | nil =>
      rw [fileText, List.flatMap_nil, List.append_nil,
        splitLines_last (h first List.mem_cons_self)]
      exact .cons (.inl rfl) .nil
  | cons l rest ih =>
      obtain ⟨e, second⟩ := l
      obtain ⟨first', hcut, hsplit⟩ := splitLines_line
        (h first List.mem_cons_self) e (fileText second rest)
      have htext : fileText first ((e, second) :: rest) =
          first ++ (e.text ++ fileText second rest) := by
        unfold fileText
        rw [List.flatMap_cons, List.append_assoc]
      rw [htext, hsplit]
      exact .cons hcut (ih second fun l hl => h l (List.mem_cons_of_mem _ hl))

/-! ## What ends a written line -/

/-- A text that ends in no carriage return. -/
def EndsOpen (l : List Char) : Prop := l.getLast? ≠ some '\r'

theorem getLast?_append_cons (l tail : List Char) (c : Char) :
    (l ++ c :: tail).getLast? = (c :: tail).getLast? := by
  rw [List.getLast?_append, List.getLast?_cons, Option.some_or]

theorem endsOpen_field {s : String} (hne : s ≠ "") (htrim : trim s = s) :
    (Csv.renderField ',' '"' s.toList).getLast?.isSome = true ∧
      EndsOpen (Csv.renderField ',' '"' s.toList) := by
  unfold EndsOpen Csv.renderField
  split
  · rw [getLast?_append_cons]
    exact ⟨rfl, by decide⟩
  · have hnil : s.toList ≠ [] := fun h => hne (by
      rw [← String.toList_inj, h, String.toList_empty])
    refine ⟨?_, fun h => ?_⟩
    · rw [List.getLast?_eq_some_getLast hnil]
      rfl
    · have := getLast_of_trimmed htrim h
      exact absurd this (by decide)

theorem PayerCsvRow.Tidy.endsOpen (h : r.Tidy) : EndsOpen (csvLine r.fields) := by
  obtain ⟨hsome, hopen⟩ := endsOpen_field h.name_ne h.name_trimmed
  obtain ⟨c, hc⟩ := Option.isSome_iff_exists.1 hsome
  have hline : csvLine r.fields = (r.kind.word.toList ++
      ',' :: Csv.renderField ',' '"' r.id.toList ++ [',']) ++
        Csv.renderField ',' '"' r.name.toList := by
    rw [csvLine_row]
    unfold csvLine
    rw [List.map_cons, List.map_cons, List.map_nil, Csv.renderLine_cons,
      Csv.renderLine_singleton]
    simp only [List.append_assoc, List.cons_append, List.nil_append]
  unfold EndsOpen at hopen ⊢
  rwa [hline, List.getLast?_append, hc, Option.some_or, ← hc]

theorem Cut.eq_of_endsOpen {l' l : List Char} (h : Cut l' l) (hopen : EndsOpen l) :
    l' = l := by
  rcases h with h | h
  · exact h
  · exact absurd (by rw [h, List.getLast?_append]; rfl) hopen

/-! ## Line by line -/

def blank (l : List Char) : Bool := l.all isBlank

def ReadsAs (l' l : List Char) : Prop := l' = l ∨ blank l' = true ∧ blank l = true

theorem ReadsAs.trans {l₁ l₂ l₃ : List Char} (h : ReadsAs l₁ l₂)
    (h' : ReadsAs l₂ l₃) : ReadsAs l₁ l₃ := by
  rcases h with rfl | h
  · exact h'
  · rcases h' with rfl | h'
    · exact .inr h
    · exact .inr ⟨h.1, h'.2⟩

theorem Cut.readsAs {l' l : List Char} (h : Cut l' l)
    (hl : blank l = true ∨ EndsOpen l) : ReadsAs l' l := by
  rcases hl with hl | hl
  · rcases h with h | h
    · exact .inl h
    · refine .inr ⟨?_, hl⟩
      rw [h, blank, List.all_append, Bool.and_eq_true] at hl
      exact hl.1
  · exact .inl (h.eq_of_endsOpen hl)

theorem readsAs_of_cut {lines' lines : List (List Char)}
    (h : List.Forall₂ Cut lines' lines)
    (hl : ∀ l ∈ lines, blank l = true ∨ EndsOpen l) :
    List.Forall₂ ReadsAs lines' lines := by
  induction h with
  | nil => exact .nil
  | cons hcut hrest ih =>
      rw [List.forall_mem_cons] at hl
      exact .cons (hcut.readsAs hl.1) (ih hl.2)

variable {s : PayerCsv} {n : ℕ}

theorem readLine_blank {l : List Char} (h : blank l = true) :
    s.readLine n (String.ofList l) = s := by
  have hskip : skipped (String.ofList l) = true := by
    have hempty : trim (String.ofList l) = "" := by
      rw [trim_eq_empty, String.toList_ofList]
      exact h
    rw [skipped, hempty]
    rfl
  rw [PayerCsv.readLine, if_pos hskip]

theorem PayerCsvRow.Tidy.readLine (h : r.Tidy) (hfirst : s.first = false) :
    s.readLine n (String.ofList (csvLine r.fields)) =
      { s with rows := s.rows ++ [r] } := by
  have hcells : Rch.splitCsvLine (String.ofList (csvLine r.fields)) =
      [r.kind.word, r.id, r.name] := h.splitCsvLine
  rw [PayerCsv.readLine, if_neg (by rw [not_skipped_row]; decide)]
  dsimp only
  rw [hfirst, Bool.false_and, if_neg (by decide), hcells]
  dsimp only
  rw [h.check, ← hfirst]

theorem readLine_header (hfirst : s.first = true) :
    s.readLine n (String.ofList (csvLine PAYER_CSV_COLUMNS)) =
      { s with first := false } := by
  have hskip : skipped (String.ofList (csvLine PAYER_CSV_COLUMNS)) = false := by
    decide +kernel
  have hheader : isHeader (splitCsvLine
      (String.ofList (csvLine PAYER_CSV_COLUMNS))) = true := by
    decide +kernel
  rw [PayerCsv.readLine, if_neg (by rw [hskip]; decide)]
  dsimp only
  rw [hfirst, hheader, if_pos (by decide)]

def readLines (s : PayerCsv) (n : ℕ) (lines : List (List Char)) : PayerCsv :=
  (lines.zipIdx n).foldl (fun s l => s.readLine l.2 (String.ofList l.1)) s

theorem readLines_cons (l : List Char) (lines : List (List Char)) :
    readLines s n (l :: lines) =
      readLines (s.readLine n (String.ofList l)) (n + 1) lines := rfl

/-- Past the header, the written lines among the blank ones are the rows. -/
theorem readLines_rows {lines' lines : List (List Char)}
    (hread : List.Forall₂ ReadsAs lines' lines) {rows : List PayerCsvRow}
    (htidy : ∀ r ∈ rows, r.Tidy)
    (hlines : lines.filter (fun l => !blank l) =
      rows.map fun r => csvLine r.fields)
    (hfirst : s.first = false) :
    readLines s n lines' = { s with rows := s.rows ++ rows } := by
  induction hread generalizing s n rows with
  | nil =>
      rw [List.filter_nil, eq_comm, List.map_eq_nil_iff] at hlines
      rw [hlines, List.append_nil]
      rfl
  | @cons l' l lines' lines hl hread ih =>
      rw [readLines_cons]
      cases hb : blank l with
      | true =>
          have hb' : blank l' = true := by
            rcases hl with hl | hl
            · rwa [hl]
            · exact hl.1
          rw [List.filter_cons_of_neg (by rw [hb]; decide)] at hlines
          rw [readLine_blank hb', ih htidy hlines hfirst]
      | false =>
          have heq : l' = l := by
            rcases hl with hl | hl
            · exact hl
            · rw [hb] at hl
              exact absurd hl.2 (by decide)
          rw [List.filter_cons_of_pos (by rw [hb]; decide)] at hlines
          cases rows with
          | nil => cases hlines
          | cons r rows =>
              obtain ⟨hr, hrows⟩ := List.cons.inj hlines
              rw [List.forall_mem_cons] at htidy
              have hrest := ih (s := { s with rows := s.rows ++ [r] }) (n := n + 1)
                htidy.2 hrows hfirst
              rw [heq, hr, htidy.1.readLine hfirst, hrest, List.append_assoc]
              rfl

/-- The header is found behind whatever blank lines stand before it. -/
theorem readLines_file {lines' lines : List (List Char)}
    (hread : List.Forall₂ ReadsAs lines' lines) {rows : List PayerCsvRow}
    (htidy : ∀ r ∈ rows, r.Tidy)
    (hlines : lines.filter (fun l => !blank l) =
      csvLine PAYER_CSV_COLUMNS :: rows.map fun r => csvLine r.fields)
    (hfirst : s.first = true) :
    readLines s n lines' = { s with first := false, rows := s.rows ++ rows } := by
  induction hread generalizing n with
  | nil => cases hlines
  | @cons l' l lines' lines hl hread ih =>
      rw [readLines_cons]
      cases hb : blank l with
      | true =>
          have hb' : blank l' = true := by
            rcases hl with hl | hl
            · rwa [hl]
            · exact hl.1
          rw [List.filter_cons_of_neg (by rw [hb]; decide)] at hlines
          rw [readLine_blank hb', ih hlines]
      | false =>
          have heq : l' = l := by
            rcases hl with hl | hl
            · exact hl
            · rw [hb] at hl
              exact absurd hl.2 (by decide)
          rw [List.filter_cons_of_pos (by rw [hb]; decide)] at hlines
          obtain ⟨hheader, hrows⟩ := List.cons.inj hlines
          rw [heq, hheader, readLine_header hfirst,
            readLines_rows hread htidy hrows rfl]

/-! ## The whole file -/

theorem dropBom_fileText (first : List Char) (rest : List (Eol × List Char)) :
    dropBom (fileText first rest) = fileText (dropBom first) rest := by
  cases first with
  | cons c first =>
      by_cases hc : c = BOM
      · simp only [fileText, List.cons_append, dropBom, if_pos hc]
      · simp only [fileText, List.cons_append, dropBom, if_neg hc]
  | nil =>
      cases rest with
      | nil => rfl
      | cons l rest =>
          obtain ⟨e, second⟩ := l
          cases e with
          | lf => rfl
          | crlf => rfl

theorem readsAs_dropBom {l : List Char}
    (h : blank l = true ∨ l.head? ≠ some BOM) : ReadsAs (dropBom l) l := by
  cases l with
  | nil => exact .inl rfl
  | cons c l =>
      by_cases hc : c = BOM
      · rcases h with h | h
        · rw [dropBom, if_pos hc]
          rw [blank, List.all_cons, Bool.and_eq_true] at h
          refine .inr ⟨h.2, ?_⟩
          rw [blank, List.all_cons, h.1, h.2, Bool.and_self]
        · exact absurd (by rw [List.head?_cons, hc]) h
      · rw [dropBom, if_neg hc]
        exact .inl rfl

theorem endsOpen_header : EndsOpen (csvLine PAYER_CSV_COLUMNS) := by
  unfold EndsOpen
  decide +kernel

/-- What was written is what is read: a line gives back its row, and a file
under its header gives back its rows, whatever blank lines and line endings
stand between them. -/
theorem payer_file_reads_back {rows : List PayerCsvRow}
    (htidy : ∀ r ∈ rows, r.Tidy) :
    (∀ r ∈ rows, splitCsvLine (String.ofList (csvLine r.fields)) = r.fields) ∧
      ∀ (first : List Char) (rest : List (Eol × List Char)),
        (∀ l ∈ first :: rest.map Prod.snd, '\n' ∉ l) →
        (first :: rest.map Prod.snd).filter (fun l => !blank l) =
          csvLine PAYER_CSV_COLUMNS :: rows.map (fun r => csvLine r.fields) →
        (parsePayerCsv (String.ofList (fileText first rest))).rows = rows ∧
          (parsePayerCsv (String.ofList (fileText first rest))).errors = [] := by
  refine ⟨fun r hr => (htidy r hr).splitCsvLine, fun first rest hline hlines => ?_⟩
  -- a line is blank, or written and so ends in no carriage return
  have hends : ∀ l ∈ first :: rest.map Prod.snd, blank l = true ∨ EndsOpen l := by
    intro l hl
    cases hb : blank l with
    | true => exact .inl rfl
    | false =>
        have hmem : l ∈ (first :: rest.map Prod.snd).filter fun l => !blank l :=
          List.mem_filter.2 ⟨hl, by rw [hb]; rfl⟩
        rw [hlines] at hmem
        rcases List.mem_cons.1 hmem with rfl | hmem
        · exact .inr endsOpen_header
        · obtain ⟨r, hr, rfl⟩ := List.mem_map.1 hmem
          exact .inr (htidy r hr).endsOpen
  have hbom : blank first = true ∨ first.head? ≠ some BOM := by
    cases hb : blank first with
    | true => exact .inl rfl
    | false =>
        rw [List.filter_cons_of_pos (by rw [hb]; decide)] at hlines
        rw [(List.cons.inj hlines).1]
        exact .inr (by decide +kernel)
  have hread : List.Forall₂ ReadsAs (splitLines (fileText (dropBom first) rest))
      (first :: rest.map Prod.snd) := by
    have hnl : ∀ l ∈ dropBom first :: rest.map Prod.snd, '\n' ∉ l := by
      intro l hl
      rcases List.mem_cons.1 hl with rfl | hl
      · intro hmem
        refine hline first List.mem_cons_self ?_
        cases first with
        | nil => exact hmem
        | cons c first =>
            rw [dropBom] at hmem
            split at hmem
            · exact List.mem_cons_of_mem _ hmem
            · exact hmem
      · exact hline l (List.mem_cons_of_mem _ hl)
    obtain ⟨first', rest', hfirst, hrest, hcut⟩ :=
      List.forall₂_cons_right_iff.1 (splitLines_fileText (dropBom first) rest hnl)
    have hdrop : ReadsAs (dropBom first) first := readsAs_dropBom hbom
    have hopen : blank (dropBom first) = true ∨ EndsOpen (dropBom first) := by
      rcases hdrop with h | h
      · rw [h]
        exact hends first List.mem_cons_self
      · exact .inl h.1
    rw [hcut]
    exact .cons ((hfirst.readsAs hopen).trans hdrop)
      (readsAs_of_cut hrest fun l hl => hends l (List.mem_cons_of_mem _ hl))
  have hparse : parsePayerCsv (String.ofList (fileText first rest)) =
      readLines ⟨[], [], true⟩ 1 (splitLines (fileText (dropBom first) rest)) := by
    unfold parsePayerCsv readLines
    rw [String.toList_ofList, dropBom_fileText]
  rw [hparse, readLines_file hread htidy hlines rfl]
  exact ⟨rfl, rfl⟩

def wardRows : List PayerCsvRow :=
  [⟨.doctor, "DR-001", "Anand Kumar, Ward 3B"⟩, ⟨.staff, "7", "\"Raju\""⟩]

theorem wardRows_tidy : ∀ r ∈ wardRows, r.Tidy := by
  intro r hr
  rcases List.mem_cons.1 hr with rfl | hr
  · exact ⟨by decide, by decide, by decide, by decide, by decide, by decide⟩
  · rw [List.mem_singleton.1 hr]
    exact ⟨by decide, by decide, by decide, by decide, by decide, by decide⟩

def wardLines : List (Eol × List Char) :=
  [(.crlf, "doctor,DR-001,\"Anand Kumar, Ward 3B\"".toList), (.lf, "  \r".toList),
    (.lf, "staff,7,\"\"\"Raju\"\"\"".toList), (.lf, [])]

theorem payer_file_reads_back_ward :
    (parsePayerCsv (String.ofList
      (fileText "kind,id,name".toList wardLines))).rows = wardRows :=
  ((payer_file_reads_back wardRows_tidy).2 _ _ (by decide) (by decide +kernel)).1

end Rch
