/-! Texts as bytes. Reading is a machine that takes one byte at a time and holds what the current character still
lacks, so the state after a cut file tells whether the cut fell inside a character. It accepts the shortest form of
every character and nothing else. -/
namespace LaunchTrace.Text.Utf8

/-- The trailing byte with the lowest six bits of `n`. -/
def trailing (n : Nat) : UInt8 :=
  UInt8.ofNat (0x80 + n % 0x40)

def encodeChar (c : Char) : List UInt8 :=
  let n := c.toNat
  if n < 0x80 then [UInt8.ofNat n]
  else if n < 0x800 then [UInt8.ofNat (0xC0 + n / 0x40), trailing n]
  else if n < 0x10000 then [UInt8.ofNat (0xE0 + n / 0x1000), trailing (n / 0x40), trailing n]
  else [UInt8.ofNat (0xF0 + n / 0x40000), trailing (n / 0x1000), trailing (n / 0x40), trailing n]

def encode (s : List Char) : List UInt8 :=
  s.flatMap encodeChar

/-- Between two characters, or inside one: the bits read so far, the number of trailing bytes still to come, and
the bounds of the next of them. -/
inductive State where
  | ready
  | inside (bits missing : Nat) (low high : UInt8)

/-- The state after the first byte of a character, and the character where that byte is all of it. The bounds of
the second byte keep out longer forms than needed, surrogates, and what lies above the last character. -/
def lead (b : UInt8) : Option (State × Option Char) :=
  if b < 0x80 then some (.ready, some (Char.ofNat b.toNat))
  else if b < 0xC2 then none
  else if b < 0xE0 then some (.inside (b.toNat - 0xC0) 1 0x80 0xBF, none)
  else if b < 0xF0 then
    some (.inside (b.toNat - 0xE0) 2 (if b = 0xE0 then 0xA0 else 0x80) (if b = 0xED then 0x9F else 0xBF), none)
  else if b < 0xF5 then
    some (.inside (b.toNat - 0xF0) 3 (if b = 0xF0 then 0x90 else 0x80) (if b = 0xF4 then 0x8F else 0xBF), none)
  else none

def step : State → UInt8 → Option (State × Option Char)
  | .ready, b => lead b
  | .inside bits missing low high, b =>
    if low ≤ b && b ≤ high then
      let bits := bits * 0x40 + (b.toNat - 0x80)
      if missing ≤ 1 then some (.ready, some (Char.ofNat bits))
      else some (.inside bits (missing - 1) 0x80 0xBF, none)
    else none

def decodeFrom : State → List UInt8 → Option (List Char)
  | .ready, [] => some []
  | .inside .., [] => none
  | state, b :: rest =>
    match step state b with
    | none => none
    | some (next, none) => decodeFrom next rest
    | some (next, some c) => (decodeFrom next rest).map (c :: ·)

/-- The text that the bytes spell, if they spell one. -/
def decode (bytes : List UInt8) : Option (List Char) :=
  decodeFrom .ready bytes

def replacement : Char := '\uFFFD'

/-- One replacement character stands for a byte that starts no character and for the longest start of a character
that its next byte does not carry on. -/
def displayFrom : State → List UInt8 → List Char
  | .ready, [] => []
  | .inside .., [] => [replacement]
  | state, b :: rest =>
    match step state b with
    | some (next, none) => displayFrom next rest
    | some (next, some c) => c :: displayFrom next rest
    | none =>
      match state with
      | .ready => replacement :: displayFrom .ready rest
      | .inside .. =>
        match lead b with
        | some (next, none) => replacement :: displayFrom next rest
        | some (next, some c) => replacement :: c :: displayFrom next rest
        | none => replacement :: replacement :: displayFrom .ready rest

/-- Bytes for the eye: what is no text shows as replacement characters. -/
def display (bytes : List UInt8) : List Char :=
  displayFrom .ready bytes

end LaunchTrace.Text.Utf8
