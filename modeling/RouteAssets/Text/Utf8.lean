/-!
# Text as bytes

UTF-8 is read one byte at a time. After the first byte of a character it is settled how many bytes
follow and in which range each of them lies; the ranges exclude surrogates, values above U+10FFFF
and forms that are longer than necessary. A byte out of range ends the character as an error and is
read again as a first byte. Main statement: what was written is read back (`readUtf8_writeUtf8`).
-/

namespace RouteAssets.Text

/-! ## Writing -/

/-- A number as a byte. -/
def byte (n : Nat) : UInt8 := UInt8.ofNat n

/-- The bytes of a character. -/
def utf8Bytes (c : Char) : List UInt8 :=
  let n := c.toNat
  if n < 0x80 then [byte n]
  else if n < 0x800 then [byte (0xc0 + n / 0x40), byte (0x80 + n % 0x40)]
  else if n < 0x10000 then
    [byte (0xe0 + n / 0x1000), byte (0x80 + n / 0x40 % 0x40), byte (0x80 + n % 0x40)]
  else
    [byte (0xf0 + n / 0x40000), byte (0x80 + n / 0x1000 % 0x40), byte (0x80 + n / 0x40 % 0x40),
      byte (0x80 + n % 0x40)]

/-- The bytes of a text. -/
def writeUtf8 (cs : List Char) : List UInt8 := cs.flatMap utf8Bytes

/-! ## Reading -/

/-- A character that has begun: the value of its bytes so far, the range of the next byte, and the
number of bytes after that, which may be any continuation bytes. -/
structure Begun where
  value : Nat
  low : Nat
  high : Nat
  after : Nat
  deriving DecidableEq, Repr

/-- What a first byte begins, when it is not a character on its own. -/
def begin? (b : Nat) : Option Begun :=
  if b < 0xc2 then none
  else if b < 0xe0 then some ⟨b - 0xc0, 0x80, 0xbf, 0⟩
  else if b == 0xe0 then some ⟨0, 0xa0, 0xbf, 1⟩
  else if b == 0xed then some ⟨0xd, 0x80, 0x9f, 1⟩
  else if b < 0xf0 then some ⟨b - 0xe0, 0x80, 0xbf, 1⟩
  else if b == 0xf0 then some ⟨0, 0x90, 0xbf, 2⟩
  else if b < 0xf4 then some ⟨b - 0xf0, 0x80, 0xbf, 2⟩
  else if b == 0xf4 then some ⟨4, 0x80, 0x8f, 2⟩
  else none

/-- Reads a first byte: the characters and errors it completes, and what it begins. -/
def readFirst (b : Nat) : List (Option Char) × Option Begun :=
  if b < 0x80 then ([some (Char.ofNat b)], none)
  else
    match begin? b with
    | some begun => ([], some begun)
    | none => ([none], none)

/-- Reads a byte in the middle of a text. -/
def readByte (state : Option Begun) (b : Nat) : List (Option Char) × Option Begun :=
  match state with
  | none => readFirst b
  | some begun =>
    if begun.low ≤ b && b ≤ begun.high then
      let value := begun.value * 0x40 + (b - 0x80)
      match begun.after with
      | 0 => ([some (Char.ofNat value)], none)
      | after + 1 => ([], some ⟨value, 0x80, 0xbf, after⟩)
    else
      let (out, state) := readFirst b
      (none :: out, state)

/-- The characters of some bytes, with nothing in place of each error. -/
def readUtf8From : Option Begun → List UInt8 → List (Option Char)
  | state, [] => if state.isSome then [none] else []
  | state, b :: bs =>
    let (out, state) := readByte state b.toNat
    out ++ readUtf8From state bs

/-- The characters of a text, when its bytes hold no error. -/
def allChars : List (Option Char) → Option (List Char)
  | [] => some []
  | none :: _ => none
  | some c :: cs => (allChars cs).map (c :: ·)

/-- The text of some bytes, when they hold no error. -/
def readUtf8 (bs : List UInt8) : Option (List Char) := allChars (readUtf8From none bs)

/-- The text of some bytes, with the replacement character in place of each error. -/
def readLossy (bs : List UInt8) : List Char := (readUtf8From none bs).map (·.getD '\ufffd')

/-! ## Line ends -/

/-- A text with a carriage return, and one in front of a newline, turned into a newline. -/
def unifyLines : List Char → List Char
  | [] => []
  | '\r' :: '\n' :: cs => '\n' :: unifyLines cs
  | '\r' :: cs => '\n' :: unifyLines cs
  | c :: cs => c :: unifyLines cs

/-! ## Laws -/

theorem toNat_byte {n : Nat} (h : n < 0x100) : (byte n).toNat = n := by
  simp [byte, Nat.mod_eq_of_lt h]

/-- Reading the bytes of a character completes that character. -/
theorem readUtf8From_utf8Bytes (c : Char) (bs : List UInt8) :
    readUtf8From none (utf8Bytes c ++ bs) = some c :: readUtf8From none bs := by
  have hv : c.toNat < 0xd800 ∨ 0xdfff < c.toNat ∧ c.toNat < 0x110000 := c.valid
  have hc : Char.ofNat c.toNat = c := Char.ofNat_toNat c
  unfold utf8Bytes
  generalize c.toNat = n at hv hc
  simp only
  split
  · rename_i h
    simp [readUtf8From, readByte, readFirst, toNat_byte (show n < 0x100 by omega), h, hc]
  · split
    · rename_i h1 h2
      have e1 : (byte (0xc0 + n / 0x40)).toNat = 0xc0 + n / 0x40 := toNat_byte (by omega)
      have e2 : (byte (0x80 + n % 0x40)).toNat = 0x80 + n % 0x40 := toNat_byte (by omega)
      have hb : begin? (0xc0 + n / 0x40) = some ⟨n / 0x40, 0x80, 0xbf, 0⟩ := by
        unfold begin?
        rw [if_neg (by omega), if_pos (by omega)]
        simp
      have hval : n / 0x40 * 0x40 + n % 0x40 = n := by omega
      have r1 : (128 ≤ 128 + n % 64) := by omega
      have r2 : (128 + n % 64 ≤ 191) := by omega
      have r3 : ¬ (192 + n / 64 < 128) := by omega
      simp [readUtf8From, readByte, readFirst, e1, e2, hb, r2, r3, hval, hc]
    · split
      · rename_i h1 h2 h3
        have e1 : (byte (0xe0 + n / 0x1000)).toNat = 0xe0 + n / 0x1000 := toNat_byte (by omega)
        have e2 : (byte (0x80 + n / 0x40 % 0x40)).toNat = 0x80 + n / 0x40 % 0x40 :=
          toNat_byte (by omega)
        have e3 : (byte (0x80 + n % 0x40)).toNat = 0x80 + n % 0x40 := toNat_byte (by omega)
        have hb : ∃ low high, begin? (0xe0 + n / 0x1000) = some ⟨n / 0x1000, low, high, 1⟩ ∧
            low ≤ 0x80 + n / 0x40 % 0x40 ∧ 0x80 + n / 0x40 % 0x40 ≤ high := by
          unfold begin?
          rw [if_neg (by omega), if_neg (by omega)]
          split
          · rename_i h
            simp only [beq_iff_eq] at h
            exact ⟨0xa0, 0xbf, by simp; omega, by omega, by omega⟩
          · split
            · rename_i h
              simp only [beq_iff_eq] at h
              exact ⟨0x80, 0x9f, by simp; omega, by omega, by omega⟩
            · rw [if_pos (by omega)]
              exact ⟨0x80, 0xbf, by simp, by omega, by omega⟩
        obtain ⟨low, high, hb, hl, hh⟩ := hb
        have hval : (n / 0x1000 * 0x40 + n / 0x40 % 0x40) * 0x40 + n % 0x40 = n := by omega
        have r2 : (128 + n % 64 ≤ 191) := by omega
        have r3 : ¬ (224 + n / 4096 < 128) := by omega
        simp [readUtf8From, readByte, readFirst, e1, e2, e3, hb, hl, hh, r2, r3, hval, hc]
      · rename_i h1 h2 h3
        have e1 : (byte (0xf0 + n / 0x40000)).toNat = 0xf0 + n / 0x40000 := toNat_byte (by omega)
        have e2 : (byte (0x80 + n / 0x1000 % 0x40)).toNat = 0x80 + n / 0x1000 % 0x40 :=
          toNat_byte (by omega)
        have e3 : (byte (0x80 + n / 0x40 % 0x40)).toNat = 0x80 + n / 0x40 % 0x40 :=
          toNat_byte (by omega)
        have e4 : (byte (0x80 + n % 0x40)).toNat = 0x80 + n % 0x40 := toNat_byte (by omega)
        have hb : ∃ low high, begin? (0xf0 + n / 0x40000) = some ⟨n / 0x40000, low, high, 2⟩ ∧
            low ≤ 0x80 + n / 0x1000 % 0x40 ∧ 0x80 + n / 0x1000 % 0x40 ≤ high := by
          unfold begin?
          rw [if_neg (by omega), if_neg (by omega), if_neg (by simp; omega),
            if_neg (by simp; omega), if_neg (by omega)]
          split
          · rename_i h
            simp only [beq_iff_eq] at h
            exact ⟨0x90, 0xbf, by simp; omega, by omega, by omega⟩
          · split
            · exact ⟨0x80, 0xbf, by simp, by omega, by omega⟩
            · rw [if_pos (by simp; omega)]
              exact ⟨0x80, 0x8f, by simp; omega, by omega, by omega⟩
        obtain ⟨low, high, hb, hl, hh⟩ := hb
        have hval : ((n / 0x40000 * 0x40 + n / 0x1000 % 0x40) * 0x40 + n / 0x40 % 0x40) * 0x40 +
            n % 0x40 = n := by omega
        have r2 : (128 + n % 64 ≤ 191) := by omega
        have r4 : (128 + n / 64 % 64 ≤ 191) := by omega
        have r3 : ¬ (240 + n / 262144 < 128) := by omega
        simp [readUtf8From, readByte, readFirst, e1, e2, e3, e4, hb, hl, hh, r2, r3, r4, hval, hc]

/-- What was written is read back. -/
theorem readUtf8_writeUtf8 (cs : List Char) : readUtf8 (writeUtf8 cs) = some cs := by
  induction cs with
  | nil => rfl
  | cons c cs ih =>
    have h : writeUtf8 (c :: cs) = utf8Bytes c ++ writeUtf8 cs := by simp [writeUtf8]
    simp only [readUtf8] at ih ⊢
    rw [h, readUtf8From_utf8Bytes, allChars, ih]
    rfl

end RouteAssets.Text
