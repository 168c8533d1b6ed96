import Mathlib.Data.List.Basic
import Mathlib.Tactic.Common

/-!
# Comma-separated lines

A line is cut at its commas, except inside quotes, where a doubled quote is one
quote. A field that carries a comma or a quote is written in quotes with its
quotes doubled, any other as it is, and reading a line gives back what was
written on it.

The walk is followed with the rest of the line behind the field: a field leaves
the reader where it was, with the field read, as long as no quote comes next.
-/

namespace Kit

namespace Csv

variable {α : Type} [DecidableEq α] (comma quote : α)

/-- What is left to read gives these fields, `field` being read so far. -/
def scan : (quoted : Bool) → (field : List α) → List α → List (List α)
  | _, field, [] => [field]
  | true, field, [c] =>
    if c = quote then [field] else [field ++ [c]]
  | true, field, c :: c' :: rest =>
    if c = quote then
      if c' = quote then scan true (field ++ [quote]) rest
      else scan false field (c' :: rest)
    else scan true (field ++ [c]) (c' :: rest)
  | false, field, c :: rest =>
    if c = quote then scan true field rest
    else if c = comma then field :: scan false [] rest
    else scan false (field ++ [c]) rest

def split (line : List α) : List (List α) := scan comma quote false [] line

def double (field : List α) : List α :=
  field.flatMap fun c => if c = quote then [quote, quote] else [c]

def renderField (field : List α) : List α :=
  if comma ∈ field ∨ quote ∈ field then quote :: double quote field ++ [quote]
  else field

def renderLine (fields : List (List α)) : List α :=
  [comma].intercalate (fields.map (renderField comma quote))

variable {comma quote}

theorem scan_end (quoted : Bool) (field : List α) :
    scan comma quote quoted field [] = [field] := by
  cases quoted <;> rfl

theorem scan_plain {f : List α} (hcomma : comma ∉ f) (hquote : quote ∉ f)
    (field rest : List α) :
    scan comma quote false field (f ++ rest) =
      scan comma quote false (field ++ f) rest := by
  induction f generalizing field with
  | nil => rw [List.nil_append, List.append_nil]
  | cons c f ih =>
      rw [List.mem_cons, not_or] at hcomma hquote
      have hstep : scan comma quote false field (c :: (f ++ rest)) =
          scan comma quote false (field ++ [c]) (f ++ rest) := by
        rw [scan, if_neg (Ne.symm hquote.1), if_neg (Ne.symm hcomma.1)]
      rw [List.cons_append, hstep, ih hcomma.2 hquote.2, List.append_assoc]
      rfl

/-- Inside quotes a character that is no quote is the field's. -/
theorem scan_quoted_char {c : α} (hc : c ≠ quote) (field rest : List α) :
    scan comma quote true field (c :: rest) =
      scan comma quote true (field ++ [c]) rest := by
  cases rest with
  | nil => simp only [scan, if_neg hc]
  | cons c' rest => rw [scan, if_neg hc]

theorem scan_doubled (field rest : List α) :
    scan comma quote true field (quote :: quote :: rest) =
      scan comma quote true (field ++ [quote]) rest := by
  rw [scan, if_pos rfl, if_pos rfl]

/-- A quote that is not doubled ends the quotes. -/
theorem scan_unquote {rest : List α} (hrest : rest.head? ≠ some quote)
    (field : List α) :
    scan comma quote true field (quote :: rest) =
      scan comma quote false field rest := by
  cases rest with
  | nil => simp only [scan, if_true]
  | cons c rest =>
      have hc : c ≠ quote := fun h => hrest (by rw [h, List.head?_cons])
      rw [scan, if_pos rfl, if_neg hc]

/-- Inside quotes what was doubled is read back, up to the closing quote. -/
theorem scan_double {rest : List α} (hrest : rest.head? ≠ some quote)
    (f field : List α) :
    scan comma quote true field (double quote f ++ quote :: rest) =
      scan comma quote false (field ++ f) rest := by
  induction f generalizing field with
  | nil => rw [double, List.flatMap_nil, List.nil_append, List.append_nil,
      scan_unquote hrest]
  | cons c f ih =>
      have hcons : double quote (c :: f) =
          (if c = quote then [quote, quote] else [c]) ++ double quote f :=
        List.flatMap_cons
      rw [hcons, List.append_assoc]
      by_cases hc : c = quote
      · rw [if_pos hc, List.cons_append, List.cons_append, List.nil_append,
          scan_doubled, ih, hc, List.append_assoc]
        rfl
      · rw [if_neg hc, List.cons_append, List.nil_append, scan_quoted_char hc,
          ih, List.append_assoc]
        rfl

theorem scan_renderField {rest : List α} (hrest : rest.head? ≠ some quote)
    (f : List α) :
    scan comma quote false [] (renderField comma quote f ++ rest) =
      scan comma quote false f rest := by
  unfold renderField
  split
  · have hopen (tail : List α) : scan comma quote false [] (quote :: tail) =
        scan comma quote true [] tail := by
      rw [scan, if_pos rfl]
    rw [List.cons_append, List.cons_append, List.append_assoc, hopen,
      List.cons_append, List.nil_append, scan_double hrest, List.nil_append]
  · next hplain =>
      rw [not_or] at hplain
      rw [scan_plain hplain.1 hplain.2, List.nil_append]

@[simp] theorem renderLine_singleton (f : List α) :
    renderLine comma quote [f] = renderField comma quote f := by
  simp [renderLine, List.intercalate]

theorem renderLine_cons (f g : List α) (fields : List (List α)) :
    renderLine comma quote (f :: g :: fields) =
      renderField comma quote f ++
        comma :: renderLine comma quote (g :: fields) := by
  unfold renderLine
  rw [List.map_cons, List.map_cons, List.intercalate_cons_cons, List.append_assoc]
  rfl

theorem split_renderLine (hne : comma ≠ quote) {fields : List (List α)}
    (hfields : fields ≠ []) :
    split comma quote (renderLine comma quote fields) = fields := by
  unfold split
  induction fields with
  | nil => exact absurd rfl hfields
  | cons f fields ih =>
      cases fields with
      | nil =>
          have hlast : scan comma quote false [] (renderField comma quote f ++ []) =
              scan comma quote false f [] := scan_renderField (by simp) f
          rw [List.append_nil, scan_end] at hlast
          rw [renderLine_singleton, hlast]
      | cons g fields =>
          have hcomma (tail : List α) :
              scan comma quote false f (comma :: tail) =
                f :: scan comma quote false [] tail := by
            rw [scan, if_neg hne, if_pos rfl]
          have hhead : (comma :: renderLine comma quote (g :: fields)).head? ≠
              some quote := fun h => hne (Option.some.inj h)
          rw [renderLine_cons, scan_renderField hhead, hcomma,
            ih (List.cons_ne_nil _ _)]

/-! ## What is written -/

end Csv

/-!
## Comma-separated records

A text of records, each ended by a two-sign line end, each cut into fields by a
sign between them. A field that has any of the signs in it is written in quotes
with its quotes doubled, so that a line end inside a field ends no record. What
was written is read back, record by record and field by field.

The reader is followed with the rest of the text behind a field: a written field
leaves it where it was, with the field read, as long as no quote comes next.
-/

namespace Records

structure Signs (α : Type) where
  comma : α
  quote : α
  cr : α
  lf : α

/-- The signs are four. -/
structure Signs.Apart {α : Type} (s : Signs α) : Prop where
  comma_quote : s.comma ≠ s.quote
  cr_quote : s.cr ≠ s.quote
  cr_comma : s.cr ≠ s.comma

variable {α : Type} [DecidableEq α] (s : Signs α)

/-- The records of what is left, with the fields of the record and the characters
of the field read so far. -/
def Signs.scan : (quoted : Bool) → List (List α) → List α → List α →
    List (List (List α))
  | _, [], [], [] => []
  | _, record, field, [] => [record ++ [field]]
  | true, record, field, [c] =>
    [record ++ [if c = s.quote then field else field ++ [c]]]
  | true, record, field, c :: c' :: rest =>
    if c = s.quote then
      if c' = s.quote then Signs.scan true record (field ++ [s.quote]) rest
      else Signs.scan false record field (c' :: rest)
    else Signs.scan true record (field ++ [c]) (c' :: rest)
  | false, record, field, [c] =>
    if c = s.comma then [record ++ [field, []]]
    else [record ++ [if c = s.quote then field else field ++ [c]]]
  | false, record, field, c :: c' :: rest =>
    if c = s.quote then Signs.scan true record field (c' :: rest)
    else if c = s.comma then Signs.scan false (record ++ [field]) [] (c' :: rest)
    else if c = s.cr ∧ c' = s.lf then
      (record ++ [field]) :: Signs.scan false [] [] rest
    else Signs.scan false record (field ++ [c]) (c' :: rest)

def Signs.read (text : List α) : List (List (List α)) := s.scan false [] [] text

def Signs.needsQuotes (field : List α) : Bool :=
  field.any fun c => decide (c = s.quote) || decide (c = s.comma) || decide (c = s.cr)
    || decide (c = s.lf)

def Signs.double (field : List α) : List α :=
  field.flatMap fun c => if c = s.quote then [s.quote, s.quote] else [c]

def Signs.writeField (field : List α) : List α :=
  if s.needsQuotes field then s.quote :: s.double field ++ [s.quote] else field

def Signs.writeRecord (fields : List (List α)) : List α :=
  [s.comma].intercalate (fields.map s.writeField) ++ [s.cr, s.lf]

def Signs.write (records : List (List (List α))) : List α :=
  (records.map s.writeRecord).flatten

variable {s}

theorem plain_iff {field : List α} : s.needsQuotes field = false ↔
    ∀ c ∈ field, c ≠ s.quote ∧ c ≠ s.comma ∧ c ≠ s.cr ∧ c ≠ s.lf := by
  simp only [Signs.needsQuotes, List.any_eq_false, Bool.or_eq_true, decide_eq_true_eq,
    not_or, and_assoc, ne_eq]

/-- Outside quotes a character that is no sign is the field's. -/
theorem scan_plain {f : List α} (h : s.needsQuotes f = false) (record : List (List α))
    (field : List α) {rest : List α} (hrest : rest ≠ []) :
    s.scan false record field (f ++ rest) = s.scan false record (field ++ f) rest := by
  induction f generalizing field with
  | nil => rw [List.nil_append, List.append_nil]
  | cons c f ih =>
      have hplain := plain_iff.1 h
      rw [List.forall_mem_cons] at hplain
      have ih := ih (plain_iff.2 hplain.2)
      obtain ⟨c', rest', hcons⟩ := List.exists_cons_of_ne_nil
        (List.append_ne_nil_of_right_ne_nil f hrest)
      have hstep : s.scan false record field (c :: (f ++ rest)) =
          s.scan false record (field ++ [c]) (f ++ rest) := by
        rw [hcons, Signs.scan, if_neg hplain.1.1, if_neg hplain.1.2.1,
          if_neg fun hend => hplain.1.2.2.1 hend.1]
      rw [List.cons_append, hstep, ih, List.append_assoc]
      rfl

/-- Inside quotes a character that is no quote is the field's. -/
theorem scan_quoted {c : α} (hc : c ≠ s.quote) (record : List (List α)) (field : List α)
    {rest : List α} (hrest : rest ≠ []) :
    s.scan true record field (c :: rest) = s.scan true record (field ++ [c]) rest := by
  obtain ⟨c', rest', rfl⟩ := List.exists_cons_of_ne_nil hrest
  rw [Signs.scan, if_neg hc]

/-- Inside quotes what was doubled is read back, up to the quote that closes. -/
theorem scan_double (f : List α) (record : List (List α)) (field : List α)
    {c : α} {rest : List α} (hc : c ≠ s.quote) :
    s.scan true record field (s.double f ++ s.quote :: c :: rest) =
      s.scan false record (field ++ f) (c :: rest) := by
  induction f generalizing field with
  | nil =>
      rw [Signs.double, List.flatMap_nil, List.nil_append, List.append_nil, Signs.scan,
        if_pos rfl, if_neg hc]
  | cons d f ih =>
      have hcons : s.double (d :: f) =
          (if d = s.quote then [s.quote, s.quote] else [d]) ++ s.double f :=
        List.flatMap_cons
      rw [hcons, List.append_assoc]
      by_cases hd : d = s.quote
      · rw [if_pos hd, List.cons_append, List.cons_append, List.nil_append, Signs.scan,
          if_pos rfl, if_pos rfl, ih, hd, List.append_assoc]
        rfl
      · rw [if_neg hd, List.cons_append, List.nil_append,
          scan_quoted hd record field (by simp), ih, List.append_assoc]
        rfl

/-- A written field is read, whatever follows it that is no quote. -/
theorem scan_writeField (f : List α) (record : List (List α)) {c : α} {rest : List α}
    (hc : c ≠ s.quote) :
    s.scan false record [] (s.writeField f ++ c :: rest) =
      s.scan false record f (c :: rest) := by
  unfold Signs.writeField
  cases h : s.needsQuotes f with
  | true =>
      have hopen : ∀ tail : List α, tail ≠ [] →
          s.scan false record [] (s.quote :: tail) = s.scan true record [] tail := by
        intro tail htail
        obtain ⟨c', tail', rfl⟩ := List.exists_cons_of_ne_nil htail
        rw [Signs.scan, if_pos rfl]
      rw [if_pos rfl, List.cons_append, List.cons_append, List.append_assoc,
        List.cons_append, List.nil_append, hopen _ (by simp), scan_double f record [] hc,
        List.nil_append]
  | false =>
      rw [if_neg Bool.false_ne_true, scan_plain h record [] (List.cons_ne_nil c rest),
        List.nil_append]

theorem scan_writeRecord (hs : s.Apart) {fields : List (List α)} (hfields : fields ≠ [])
    (record : List (List α)) (rest : List α) :
    s.scan false record [] (s.writeRecord fields ++ rest) =
      (record ++ fields) :: s.read rest := by
  induction fields generalizing record with
  | nil => exact absurd rfl hfields
  | cons f fields ih =>
      cases fields with
      | nil =>
          have hlast : s.writeRecord [f] ++ rest =
              s.writeField f ++ s.cr :: s.lf :: rest := by
            simp [Signs.writeRecord, List.intercalate]
          rw [hlast, scan_writeField f record hs.cr_quote, Signs.scan, if_neg hs.cr_quote,
            if_neg hs.cr_comma, if_pos ⟨rfl, rfl⟩]
          rfl
      | cons g fields =>
          have hmore : s.writeRecord (f :: g :: fields) ++ rest =
              s.writeField f ++ s.comma :: (s.writeRecord (g :: fields) ++ rest) := by
            unfold Signs.writeRecord
            rw [List.map_cons, List.map_cons, List.intercalate_cons_cons, List.append_assoc,
              List.append_assoc]
            simp only [List.append_assoc, List.cons_append, List.nil_append]
          have hne : s.writeRecord (g :: fields) ++ rest ≠ [] := by
            simp [Signs.writeRecord]
          obtain ⟨c', tail, hcons⟩ := List.exists_cons_of_ne_nil hne
          have hcomma : s.scan false record f
              (s.comma :: (s.writeRecord (g :: fields) ++ rest)) =
              s.scan false (record ++ [f]) [] (s.writeRecord (g :: fields) ++ rest) := by
            rw [hcons, Signs.scan, if_neg hs.comma_quote, if_pos rfl]
          rw [hmore, scan_writeField f record hs.comma_quote, hcomma,
            ih (List.cons_ne_nil g fields), List.append_assoc]
          rfl

theorem read_write (hs : s.Apart) {records : List (List (List α))}
    (h : ∀ record ∈ records, record ≠ []) : s.read (s.write records) = records := by
  induction records with
  | nil => rfl
  | cons record records ih =>
      rw [List.forall_mem_cons] at h
      rw [Signs.write, List.map_cons, List.flatten_cons, Signs.read,
        scan_writeRecord hs h.1 [] _, List.nil_append]
      exact congrArg (record :: ·) (ih h.2)

end Records

end Kit
