import Mathlib.Data.List.Basic

/-!
# UTF-8, a byte at a time

The decoder reads one byte at a time and keeps what it has of a character, so
how the bytes are cut up cannot matter: reading one run of bytes and then
another is reading both. A byte that does not belong is answered with the
replacement character, and a mark at the very start is left out.

Reading back what was encoded gives the text, and reading part of it gives the
characters that are whole.
-/

namespace Kit

def encode (c : Char) : List ℕ :=
  let n := c.toNat
  if n < 0x80 then [n]
  else if n < 0x800 then [0xC0 + n / 64, 0x80 + n % 64]
  else if n < 0x10000 then
    [0xE0 + n / 4096, 0x80 + n / 64 % 64, 0x80 + n % 64]
  else
    [0xF0 + n / 262144, 0x80 + n / 4096 % 64, 0x80 + n / 64 % 64, 0x80 + n % 64]

def utf8 (text : List Char) : List ℕ := text.flatMap encode

def byteOrderMark : Char := Char.ofNat 0xFEFF

def replacement : Char := Char.ofNat 0xFFFD

structure Decoder where
  /-- A character has been read. -/
  started : Bool
  /-- How many bytes the character still lacks. -/
  needed : ℕ
  point : ℕ
  /-- Where the next byte has to lie. -/
  lower : ℕ
  upper : ℕ
deriving DecidableEq, Repr

namespace Decoder

def idle (started : Bool) : Decoder := ⟨started, 0, 0, 0x80, 0xBF⟩

def fresh : Decoder := idle false

def emit (d : Decoder) (c : Char) : Decoder × List Char :=
  (idle true, if d.started = false ∧ c = byteOrderMark then [] else [c])

def lead (d : Decoder) (b : ℕ) : Decoder × List Char :=
  if b ≤ 0x7F then d.emit (Char.ofNat b)
  else if 0xC2 ≤ b ∧ b ≤ 0xDF then (⟨d.started, 1, b - 0xC0, 0x80, 0xBF⟩, [])
  else if 0xE0 ≤ b ∧ b ≤ 0xEF then
    (⟨d.started, 2, b - 0xE0, if b = 0xE0 then 0xA0 else 0x80,
      if b = 0xED then 0x9F else 0xBF⟩, [])
  else if 0xF0 ≤ b ∧ b ≤ 0xF4 then
    (⟨d.started, 3, b - 0xF0, if b = 0xF0 then 0x90 else 0x80,
      if b = 0xF4 then 0x8F else 0xBF⟩, [])
  else d.emit replacement

def step (d : Decoder) (b : ℕ) : Decoder × List Char :=
  if d.needed = 0 then d.lead b
  else if d.lower ≤ b ∧ b ≤ d.upper then
    let point := d.point * 64 + (b - 0x80)
    if d.needed = 1 then d.emit (Char.ofNat point)
    else (⟨d.started, d.needed - 1, point, 0x80, 0xBF⟩, [])
  else
    let (d', out) := d.emit replacement
    let (d'', out') := d'.lead b
    (d'', out ++ out')

def decode (d : Decoder) : List ℕ → Decoder × List Char
  | [] => (d, [])
  | b :: bs =>
    let r := d.step b
    let r' := r.1.decode bs
    (r'.1, r.2 ++ r'.2)

theorem decode_append (d : Decoder) (bs bs' : List ℕ) :
    d.decode (bs ++ bs') = (((d.decode bs).1.decode bs').1,
      (d.decode bs).2 ++ ((d.decode bs).1.decode bs').2) := by
  induction bs generalizing d with
  | nil => rfl
  | cons b bs ih =>
      rw [List.cons_append, decode, ih, decode]
      simp only [List.append_assoc]

/-! ## Reading back -/

theorem step_idle (s : Bool) (b : ℕ) : (idle s).step b = (idle s).lead b :=
  if_pos rfl

theorem step_tail {d : Decoder} {b : ℕ} (hd : 1 < d.needed)
    (hb : d.lower ≤ b ∧ b ≤ d.upper) :
    d.step b = (⟨d.started, d.needed - 1, d.point * 64 + (b - 0x80), 0x80,
      0xBF⟩, []) := by
  rw [step, if_neg (by omega), if_pos hb]
  dsimp only
  rw [if_neg (by omega)]

theorem step_last {d : Decoder} {b : ℕ} (hd : d.needed = 1)
    (hb : d.lower ≤ b ∧ b ≤ d.upper) :
    d.step b = d.emit (Char.ofNat (d.point * 64 + (b - 0x80))) := by
  rw [step, if_neg (by omega), if_pos hb]
  dsimp only
  rw [if_pos hd]

/-- The bytes read as the character, and say nothing before the last. -/
structure Reads (s : Bool) (bs : List ℕ) (c : Char) : Prop where
  whole : (idle s).decode bs = (idle s).emit c
  part : ∀ k < bs.length, ((idle s).decode (bs.take k)).2 = []

theorem reads_one (s : Bool) (c : Char) (h : c.toNat < 0x80) :
    Reads s [c.toNat] c := by
  have hlead : (idle s).step c.toNat = (idle s).emit c := by
    rw [step_idle, lead, if_pos (by omega), Char.ofNat_toNat]
  constructor
  · rw [decode, hlead]
    simp [decode]
  · intro k hk
    obtain rfl : k = 0 := Nat.lt_one_iff.1 hk
    rfl

theorem reads_two (s : Bool) {c : Char} {a b : ℕ} (ha : 0xC2 ≤ a ∧ a ≤ 0xDF)
    (hb : 0x80 ≤ b ∧ b ≤ 0xBF)
    (h : (a - 0xC0) * 64 + (b - 0x80) = c.toNat) : Reads s [a, b] c := by
  have hlead : (idle s).step a = (⟨s, 1, a - 0xC0, 0x80, 0xBF⟩, []) := by
    rw [step_idle, lead, if_neg (by omega), if_pos ha]
    rfl
  have hlast : (⟨s, 1, a - 0xC0, 0x80, 0xBF⟩ : Decoder).step b =
      (idle s).emit c := by
    rw [step_last rfl hb, h, Char.ofNat_toNat]
    rfl
  constructor
  · simp [decode, hlead, hlast]
  · intro k hk
    obtain rfl | rfl : k = 0 ∨ k = 1 := by
      simp only [List.length_cons, List.length_nil] at hk
      omega
    · rfl
    · simp [decode, hlead]

theorem reads_three (s : Bool) {c : Char} {a b b' : ℕ}
    (ha : 0xE0 ≤ a ∧ a ≤ 0xEF)
    (hb : (if a = 0xE0 then 0xA0 else 0x80) ≤ b ∧
      b ≤ if a = 0xED then 0x9F else 0xBF)
    (hb' : 0x80 ≤ b' ∧ b' ≤ 0xBF)
    (h : ((a - 0xE0) * 64 + (b - 0x80)) * 64 + (b' - 0x80) = c.toNat) :
    Reads s [a, b, b'] c := by
  have hlead : (idle s).step a = (⟨s, 2, a - 0xE0,
      if a = 0xE0 then 0xA0 else 0x80, if a = 0xED then 0x9F else 0xBF⟩, []) := by
    rw [step_idle, lead, if_neg (by omega), if_neg (by omega), if_pos ha]
    rfl
  have htail : (⟨s, 2, a - 0xE0, if a = 0xE0 then 0xA0 else 0x80,
        if a = 0xED then 0x9F else 0xBF⟩ : Decoder).step b =
      (⟨s, 1, (a - 0xE0) * 64 + (b - 0x80), 0x80, 0xBF⟩, []) :=
    step_tail (show 1 < 2 from by decide) hb
  have hlast : (⟨s, 1, (a - 0xE0) * 64 + (b - 0x80), 0x80, 0xBF⟩ :
      Decoder).step b' = (idle s).emit c := by
    rw [step_last rfl hb', h, Char.ofNat_toNat]
    rfl
  constructor
  · simp [decode, hlead, htail, hlast]
  · intro k hk
    obtain rfl | rfl | rfl : k = 0 ∨ k = 1 ∨ k = 2 := by
      simp only [List.length_cons, List.length_nil] at hk
      omega
    · rfl
    · simp [decode, hlead]
    · simp [decode, hlead, htail]

theorem reads_four (s : Bool) {c : Char} {a b b' b'' : ℕ}
    (ha : 0xF0 ≤ a ∧ a ≤ 0xF4)
    (hb : (if a = 0xF0 then 0x90 else 0x80) ≤ b ∧
      b ≤ if a = 0xF4 then 0x8F else 0xBF)
    (hb' : 0x80 ≤ b' ∧ b' ≤ 0xBF) (hb'' : 0x80 ≤ b'' ∧ b'' ≤ 0xBF)
    (h : (((a - 0xF0) * 64 + (b - 0x80)) * 64 + (b' - 0x80)) * 64 +
      (b'' - 0x80) = c.toNat) :
    Reads s [a, b, b', b''] c := by
  have hlead : (idle s).step a = (⟨s, 3, a - 0xF0,
      if a = 0xF0 then 0x90 else 0x80, if a = 0xF4 then 0x8F else 0xBF⟩, []) := by
    rw [step_idle, lead, if_neg (by omega), if_neg (by omega),
      if_neg (by omega), if_pos ha]
    rfl
  have htail : (⟨s, 3, a - 0xF0, if a = 0xF0 then 0x90 else 0x80,
        if a = 0xF4 then 0x8F else 0xBF⟩ : Decoder).step b =
      (⟨s, 2, (a - 0xF0) * 64 + (b - 0x80), 0x80, 0xBF⟩, []) :=
    step_tail (show 1 < 3 from by decide) hb
  have htail' : (⟨s, 2, (a - 0xF0) * 64 + (b - 0x80), 0x80, 0xBF⟩ :
      Decoder).step b' =
      (⟨s, 1, ((a - 0xF0) * 64 + (b - 0x80)) * 64 + (b' - 0x80), 0x80, 0xBF⟩,
        []) :=
    step_tail (show 1 < 2 from by decide) hb'
  have hlast : (⟨s, 1, ((a - 0xF0) * 64 + (b - 0x80)) * 64 + (b' - 0x80), 0x80,
      0xBF⟩ : Decoder).step b'' = (idle s).emit c := by
    rw [step_last rfl hb'', h, Char.ofNat_toNat]
    rfl
  constructor
  · simp [decode, hlead, htail, htail', hlast]
  · intro k hk
    obtain rfl | rfl | rfl | rfl : k = 0 ∨ k = 1 ∨ k = 2 ∨ k = 3 := by
      simp only [List.length_cons, List.length_nil] at hk
      omega
    · rfl
    · simp [decode, hlead]
    · simp [decode, hlead, htail]
    · simp [decode, hlead, htail, htail']

/-- Where the characters lie. -/
theorem toNat_valid (c : Char) :
    c.toNat < 0xD800 ∨ (0xDFFF < c.toNat ∧ c.toNat < 0x110000) := c.valid

theorem reads_encode (s : Bool) (c : Char) : Reads s (encode c) c := by
  have hvalid := toNat_valid c
  unfold encode
  dsimp only
  split
  · next h => exact reads_one s c h
  · split
    · exact reads_two s (by omega) (by omega) (by omega)
    · split
      · refine reads_three s (by omega) ⟨?_, ?_⟩ (by omega) (by omega)
        · split <;> omega
        · split <;> omega
      · refine reads_four s (by omega) ⟨?_, ?_⟩ (by omega) (by omega) (by omega)
        · split <;> omega
        · split <;> omega

/-- The text has no mark to lose. -/
def Unmarked (s : Bool) (text : List Char) : Prop :=
  s = true ∨ text.head? ≠ some byteOrderMark

theorem emit_unmarked {s : Bool} {c : Char} {text : List Char}
    (h : Unmarked s (c :: text)) : (idle s).emit c = (idle true, [c]) := by
  rw [emit, if_neg]
  rintro ⟨hs, rfl⟩
  rcases h with h | h
  · rw [idle, h] at hs
    cases hs
  · exact h rfl

theorem decode_encode {s : Bool} {c : Char} {text : List Char}
    (h : Unmarked s (c :: text)) :
    (idle s).decode (encode c) = (idle true, [c]) := by
  rw [(reads_encode s c).whole, emit_unmarked h]

theorem decode_utf8 (s : Bool) (text : List Char) (h : Unmarked s text) :
    (idle s).decode (utf8 text) = (idle (s || !text.isEmpty), text) := by
  induction text generalizing s with
  | nil =>
      rw [List.isEmpty_nil, Bool.not_true, Bool.or_false]
      rfl
  | cons c text ih =>
      have hbytes : utf8 (c :: text) = encode c ++ utf8 text := rfl
      rw [hbytes, decode_append, decode_encode h, ih true (.inl rfl)]
      simp

/-- From the first bytes of a text come back its characters that are whole. -/
theorem decode_take (s : Bool) (text : List Char) (h : Unmarked s text)
    (k : ℕ) (hk : k < (utf8 text).length) : ∃ j < text.length,
      ((idle s).decode ((utf8 text).take k)).2 = text.take j := by
  induction text generalizing s k with
  | nil => exact absurd hk (Nat.not_lt_zero k)
  | cons c text ih =>
      have hbytes : utf8 (c :: text) = encode c ++ utf8 text := rfl
      rw [hbytes, List.length_append] at hk
      rw [hbytes]
      by_cases hlen : k < (encode c).length
      · refine ⟨0, Nat.succ_pos _, ?_⟩
        rw [List.take_append_of_le_length (Nat.le_of_lt hlen),
          (reads_encode s c).part k hlen]
        rfl
      · obtain ⟨j, hj, hrest⟩ :=
          ih true (.inl rfl) (k - (encode c).length) (by omega)
        refine ⟨j + 1, Nat.succ_lt_succ hj, ?_⟩
        rw [List.take_append, List.take_of_length_le (by omega), decode_append,
          decode_encode h, hrest]
        rfl

end Decoder

end Kit
