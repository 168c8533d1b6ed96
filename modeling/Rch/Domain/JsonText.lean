import Rch.Domain.Json
import Rch.Domain.Numerals

/-!
# JSON as text

What `JSON.stringify` writes for an object of texts, and what `JSON.parse` reads
of any text. Such an object reads back as itself.

The reader goes down the text with a count of the steps it may still take. One
for each character is enough. A text of code units that are no characters by
themselves has the replacement character for each of them.
-/

namespace Rch

/-! ## Writing -/

def hexChar (n : ℕ) : Char :=
  if n < 10 then Char.ofNat (n + 48) else Char.ofNat (n + 87)

def quoteChar (c : Char) : List Char :=
  if c = '"' then ['\\', '"']
  else if c = '\\' then ['\\', '\\']
  else if c.toNat = 8 then ['\\', 'b']
  else if c.toNat = 12 then ['\\', 'f']
  else if c = '\n' then ['\\', 'n']
  else if c = '\r' then ['\\', 'r']
  else if c = '\t' then ['\\', 't']
  else if c.toNat < 32 then
    ['\\', 'u', '0', '0', hexChar (c.toNat / 16), hexChar (c.toNat % 16)]
  else [c]

def quoted (s : String) : List Char := '"' :: (s.toList.flatMap quoteChar ++ ['"'])

/-- The members of an object, up to its closing brace. -/
def stringifyFields : List (String × String) → List Char
  | [] => []
  | [(k, v)] => quoted k ++ ':' :: quoted v
  | (k, v) :: fields => quoted k ++ ':' :: quoted v ++ ',' :: stringifyFields fields

def stringify (fields : List (String × String)) : List Char :=
  '\x7b' :: (stringifyFields fields ++ ['\x7d'])

/-! ## Reading -/

def skipBlank (cs : List Char) : List Char :=
  cs.dropWhile fun c => [' ', '\t', '\n', '\r'].contains c

/-- The character a letter stands for behind a backslash. -/
def escaped : Char → Option Char
  | '"' => some '"'
  | '\\' => some '\\'
  | '/' => some '/'
  | 'b' => some (Char.ofNat 8)
  | 'f' => some (Char.ofNat 12)
  | 'n' => some '\n'
  | 'r' => some '\r'
  | 't' => some '\t'
  | _ => none

def unitOf (a b c d : Char) : Option Char :=
  ([a, b, c, d].mapM hexDigit).map fun ns =>
    let n := ns.foldl (fun n d => n * 16 + d) 0
    if n.isValidChar then Char.ofNat n else Char.ofNat 0xFFFD

/-- A text after its opening quote, and what follows its closing one. -/
def parseText : List Char → Option (List Char × List Char)
  | '"' :: cs => some ([], cs)
  | '\\' :: 'u' :: a :: b :: c :: d :: cs =>
    (unitOf a b c d).bind fun u =>
      (parseText cs).map fun p => (u :: p.1, p.2)
  | '\\' :: e :: cs =>
    (escaped e).bind fun c => (parseText cs).map fun p => (c :: p.1, p.2)
  | c :: cs =>
    if c.toNat < 32 then none
    else (parseText cs).map fun p => (c :: p.1, p.2)
  | [] => none

/-- A number's characters: a whole part without zeros in front, and a point or
an exponent with digits behind it where there is one. -/
def parseNumber (cs : List Char) : Option (Json × List Char) :=
  let (negative, cs) : Bool × List Char := match cs with
    | '-' :: cs => (true, cs)
    | _ => (false, cs)
  let whole := cs.takeWhile Char.isDigit
  let rest := cs.dropWhile Char.isDigit
  let fraction : Option (List Char × List Char) := match rest with
    | '.' :: ds =>
      if ds.takeWhile Char.isDigit = [] then none
      else some ('.' :: ds.takeWhile Char.isDigit, ds.dropWhile Char.isDigit)
    | _ => some ([], rest)
  fraction.bind fun f =>
    let exponent : Option (List Char × List Char) := match f.2 with
      | e :: sign :: ds =>
        let (mark, ds) : List Char × List Char :=
          if sign = '+' ∨ sign = '-' then ([e, sign], ds) else ([e], sign :: ds)
        if ¬(e = 'e' ∨ e = 'E') then some ([], f.2)
        else if ds.takeWhile Char.isDigit = [] then none
        else some (mark ++ ds.takeWhile Char.isDigit, ds.dropWhile Char.isDigit)
      | [e] => if e = 'e' ∨ e = 'E' then none else some ([], f.2)
      | [] => some ([], [])
    exponent.bind fun x =>
      if whole = [] ∨ (whole.head? = some '0' ∧ 1 < whole.length) then none
      else
        let q := (decimalOf (whole ++ f.1 ++ x.1)).getD 0
        some (.num (if negative then -q else q), x.2)

/-- A member put among those before it; of two under one name the later
stands. -/
def putField (fields : List (String × Json)) (f : String × Json) :
    List (String × Json) :=
  if fields.any (fun g => g.1 = f.1) then
    fields.map fun g => if g.1 = f.1 then f else g
  else fields ++ [f]

mutual

def parseValue : ℕ → List Char → Option (Json × List Char)
  | 0, _ => none
  | n + 1, cs =>
    match skipBlank cs with
    | 'n' :: 'u' :: 'l' :: 'l' :: cs => some (.null, cs)
    | 't' :: 'r' :: 'u' :: 'e' :: cs => some (.bool true, cs)
    | 'f' :: 'a' :: 'l' :: 's' :: 'e' :: cs => some (.bool false, cs)
    | '"' :: cs =>
      (parseText cs).map fun p => (.str (String.ofList p.1), p.2)
    | '[' :: cs =>
      match skipBlank cs with
      | ']' :: cs => some (.arr [], cs)
      | cs => (parseItems n cs).map fun p => (.arr p.1, p.2)
    | '\x7b' :: cs =>
      match skipBlank cs with
      | '\x7d' :: cs => some (.obj [], cs)
      | cs => (parseFields n cs).map fun p =>
        (.obj (p.1.foldl putField []), p.2)
    | cs => parseNumber cs

/-- The items of an array, and what follows its bracket. -/
def parseItems : ℕ → List Char → Option (List Json × List Char)
  | 0, _ => none
  | n + 1, cs =>
    (parseValue n cs).bind fun p =>
      match skipBlank p.2 with
      | ',' :: cs => (parseItems n cs).map fun q => (p.1 :: q.1, q.2)
      | ']' :: cs => some ([p.1], cs)
      | _ => none

/-- The members of an object, and what follows its brace. -/
def parseFields : ℕ → List Char → Option (List (String × Json) × List Char)
  | 0, _ => none
  | n + 1, cs =>
    match skipBlank cs with
    | '"' :: cs =>
      (parseText cs).bind fun k =>
        match skipBlank k.2 with
        | ':' :: cs =>
          (parseValue n cs).bind fun p =>
            match skipBlank p.2 with
            | ',' :: cs => (parseFields n cs).map fun q =>
              ((String.ofList k.1, p.1) :: q.1, q.2)
            | '\x7d' :: cs => some ([(String.ofList k.1, p.1)], cs)
            | _ => none
        | _ => none
    | _ => none

end

/-- `JSON.parse`, none where it throws. -/
def parseJson (cs : List Char) : Option Json :=
  (parseValue (cs.length + 1) cs).bind fun p =>
    if skipBlank p.2 = [] then some p.1 else none

/-! ## Reading back -/

theorem hexDigit_hexChar : ∀ n < 16, hexDigit (hexChar n) = some n := by decide

theorem parseText_quoteChar (c : Char) (cs : List Char) :
    parseText (quoteChar c ++ cs) =
      (parseText cs).map fun p => (c :: p.1, p.2) := by
  have hback (n : ℕ) (h : c.toNat = n) : Char.ofNat n = c := by
    rw [← h, Char.ofNat_toNat]
  unfold quoteChar
  split
  · next h => subst h; simp [parseText, escaped]
  split
  · next h => subst h; simp [parseText, escaped]
  split
  · next h => obtain rfl := hback 8 h; rfl
  split
  · next h => obtain rfl := hback 12 h; rfl
  split
  · next h => subst h; simp [parseText, escaped]
  split
  · next h => subst h; simp [parseText, escaped]
  split
  · next h => subst h; simp [parseText, escaped]
  split
  · next h =>
      have hhigh := hexDigit_hexChar (c.toNat / 16) (by omega)
      have hlow := hexDigit_hexChar (c.toNat % 16) (by omega)
      have hzero : hexDigit '0' = some 0 := rfl
      have hunit : unitOf '0' '0' (hexChar (c.toNat / 16))
          (hexChar (c.toNat % 16)) = some c := by
        have hvalue : (((0 * 16 + 0) * 16 + 0) * 16 + c.toNat / 16) * 16 +
            c.toNat % 16 = c.toNat := by omega
        simp only [unitOf, List.mapM_cons, List.mapM_nil, hzero, hhigh, hlow,
          Option.pure_def, Option.bind_eq_bind, Option.bind_some,
          Option.map_some, List.foldl_cons, List.foldl_nil, hvalue]
        rw [if_pos (show c.toNat.isValidChar from c.valid), Char.ofNat_toNat]
      simp [parseText, hunit]
  · next hquote hslash _ _ _ _ _ hlow =>
      rw [List.singleton_append, parseText.eq_def]
      split <;> simp_all

theorem parseText_quoted (s : String) (cs : List Char) :
    parseText (s.toList.flatMap quoteChar ++ '"' :: cs) =
      some (s.toList, cs) := by
  induction s.toList with
  | nil => rfl
  | cons c l ih =>
      rw [List.flatMap_cons, List.append_assoc, parseText_quoteChar, ih]
      rfl

theorem parseValue_quoted (n : ℕ) (s : String) (cs : List Char) :
    parseValue (n + 1) (quoted s ++ cs) = some (.str s, cs) := by
  have htext : quoted s ++ cs = '"' :: (s.toList.flatMap quoteChar ++ '"' :: cs) := by
    rw [quoted, List.cons_append, List.append_assoc, List.singleton_append]
  rw [htext, parseValue]
  have hskip (l : List Char) : skipBlank ('"' :: l) = '"' :: l := rfl
  simp only [hskip, parseText_quoted, Option.map_some, String.ofList_toList]

/-- The members written one after another read back in order. -/
theorem parseFields_stringify (fields : List (String × String)) (n : ℕ)
    (cs : List Char) (hne : fields ≠ []) (hn : fields.length < n) :
    parseFields n (stringifyFields fields ++ '\x7d' :: cs) =
      some (fields.map fun f => (f.1, .str f.2), cs) := by
  have hquote (l : List Char) : skipBlank ('"' :: l) = '"' :: l := rfl
  have hcolon (l : List Char) : skipBlank (':' :: l) = ':' :: l := rfl
  have hcomma (l : List Char) : skipBlank (',' :: l) = ',' :: l := rfl
  have hbrace (l : List Char) : skipBlank ('\x7d' :: l) = '\x7d' :: l := rfl
  induction fields generalizing n with
  | nil => exact absurd rfl hne
  | cons f fields ih =>
      obtain ⟨k, v⟩ := f
      obtain ⟨n, rfl⟩ : ∃ m, n = m + 2 :=
        ⟨n - 2, by simp only [List.length_cons] at hn; omega⟩
      cases fields with
      | nil =>
          have htext : stringifyFields [(k, v)] ++ '\x7d' :: cs =
              '"' :: (k.toList.flatMap quoteChar ++
                '"' :: ':' :: (quoted v ++ '\x7d' :: cs)) := by
            simp [stringifyFields, quoted]
          rw [htext, parseFields]
          simp only [hquote, parseText_quoted, Option.bind_some, hcolon,
            parseValue_quoted, hbrace, String.ofList_toList, List.map_cons,
            List.map_nil]
      | cons g fields =>
          have hrest := ih (n + 1) (by simp)
            (by simp only [List.length_cons] at hn ⊢; omega)
          have htext : stringifyFields ((k, v) :: g :: fields) ++
                '\x7d' :: cs =
              '"' :: (k.toList.flatMap quoteChar ++ '"' :: ':' :: (quoted v ++
                ',' :: (stringifyFields (g :: fields) ++ '\x7d' :: cs))) := by
            simp [stringifyFields, quoted]
          rw [htext, parseFields]
          simp only [hquote, parseText_quoted, Option.bind_some, hcolon,
            parseValue_quoted, hcomma, hrest, Option.map_some,
            String.ofList_toList, List.map_cons]

theorem foldl_putField (fields done : List (String × Json))
    (h : ((done ++ fields).map Prod.fst).Nodup) :
    fields.foldl putField done = done ++ fields := by
  induction fields generalizing done with
  | nil => rw [List.foldl_nil, List.append_nil]
  | cons f fields ih =>
      have hput : putField done f = done ++ [f] := by
        rw [putField, if_neg]
        rw [List.any_eq_true]
        rintro ⟨g, hg, hkey⟩
        rw [List.map_append, List.nodup_append] at h
        exact h.2.2 g.1 (List.mem_map_of_mem hg) f.1 (by simp)
          (of_decide_eq_true hkey)
      rw [List.foldl_cons, hput, ih, List.append_assoc, List.singleton_append]
      rwa [List.append_assoc, List.singleton_append]

theorem parseJson_stringify {fields : List (String × String)}
    (hne : fields ≠ []) (hkeys : (fields.map Prod.fst).Nodup) :
    parseJson (stringify fields) =
      some (.obj (fields.map fun f => (f.1, .str f.2))) := by
  have hgrow : ∀ l : List (String × String),
      l.length ≤ (stringifyFields l).length := by
    intro l
    induction l with
    | nil => exact Nat.le_refl 0
    | cons f l ih =>
        obtain ⟨k, v⟩ := f
        cases l with
        | nil =>
            simp only [stringifyFields, List.length_append, List.length_cons,
              List.length_nil]
            omega
        | cons g l =>
            simp only [stringifyFields, List.length_append, List.length_cons]
              at ih ⊢
            omega
  have hhead : ∃ l, stringifyFields fields ++ ['\x7d'] = '"' :: l := by
    cases fields with
    | nil => exact absurd rfl hne
    | cons f fields =>
        obtain ⟨k, v⟩ := f
        cases fields with
        | nil => exact ⟨_, rfl⟩
        | cons g fields => exact ⟨_, rfl⟩
  have hfold : (fields.map fun f => (f.1, Json.str f.2)).foldl putField [] =
      fields.map fun f => (f.1, .str f.2) := by
    refine foldl_putField _ [] ?_
    rw [List.nil_append, List.map_map]
    exact hkeys
  obtain ⟨l, hl⟩ := hhead
  have hlong : fields.length < ('"' :: l).length + 1 := by
    rw [← hl, List.length_append]
    exact Nat.lt_succ_of_le (Nat.le_succ_of_le (hgrow fields))
  have hmembers := parseFields_stringify fields _ [] hne hlong
  rw [hl] at hmembers
  have hvalue : parseValue (('"' :: l).length + 1 + 1) ('\x7b' :: '"' :: l) =
      some (.obj (fields.map fun f => (f.1, .str f.2)), []) := by
    rw [parseValue]
    change Option.map _ (parseFields (('"' :: l).length + 1) ('"' :: l)) = _
    rw [hmembers, Option.map_some, hfold]
  rw [parseJson, stringify, hl, List.length_cons, hvalue]
  rfl

end Rch
