import Picotls.Buffers.Growth

/-!
# Base64

`ptls_base64_encode` writes the text of octets, `ptls_base64_decode` takes text line by line: it
keeps an incomplete quantum between the calls and appends what it decodes to a buffer. A text is the
characters of a C string up to its terminator.
-/

namespace Picotls.Pem

open Foundation Procedure Buffers

/-- The octet of a character. -/
def octet (c : Char) : UInt8 := UInt8.ofNat c.toNat

/-- The values of the characters up to 0x7f. -/
def base64Values : List ℤ :=
  [-1, -1, -1, -1, -1, -1, -1, -1, -1, -1, -1, -1, -1, -1, -1, -1,
    -1, -1, -1, -1, -1, -1, -1, -1, -1, -1, -1, -1, -1, -1, -1, -1,
    -1, -1, -1, -1, -1, -1, -1, -1, -1, -1, -1, 62, -1, -1, -1, 63,
    52, 53, 54, 55, 56, 57, 58, 59, 60, 61, -1, -1, -1, -1, -1, -1,
    -1, 0, 1, 2, 3, 4, 5, 6, 7, 8, 9, 10, 11, 12, 13, 14,
    15, 16, 17, 18, 19, 20, 21, 22, 23, 24, 25, -1, -1, -1, -1, -1,
    -1, 26, 27, 28, 29, 30, 31, 32, 33, 34, 35, 36, 37, 38, 39, 40,
    41, 42, 43, 44, 45, 46, 47, 48, 49, 50, 51, -1, -1, -1, -1, -1]

/-- The value of a character of a text. -/
def base64Value (c : UInt8) : ℤ :=
  if 0 < c ∧ c < 0x7f then base64Values.getD c.toNat (-1) else -1

/-- The sign that fills up the last quantum. -/
abbrev padSign : UInt8 := 0x3d

/-! ## Encoding -/

/-- How far the decoding has come. -/
inductive DecodeStatus where
  | inProgress
  | done
  | failed
  deriving DecidableEq

/-- The state that is kept between lines: the characters of the quantum so far, the octets that it
stands for, its value, and the status. -/
structure DecodeState where
  nbc : ℕ
  nbo : ℕ
  v : ℕ
  status : DecodeStatus
  deriving DecidableEq

/-- The state before the first line. -/
def ptlsBase64DecodeInit : DecodeState := ⟨0, 3, 0, .inProgress⟩

/-- The text could not be decoded. -/
abbrev incorrectBase64 : Code := errorClassInternal + 50

/-- A procedure that works on a buffer and the state of a decoding. -/
abbrev DecodeProc := Procedure Build (Store × DecodeState) Stop

/-- The state of the decoding. -/
def getState : DecodeProc DecodeState := observe fun _ s => s.2

/-- Replace the state of the decoding. -/
def setState (st : DecodeState) : DecodeProc Unit := update fun _ s => (s.1, st)

/-- Work on the buffer. -/
def onBuffer {α : Type} (m : Buffers.Proc α) : DecodeProc α := fun build s =>
  ((m build s.1).1, ((m build s.1).2, s.2))

/-- A blank that may stand in front of a line. -/
def isBlank (c : UInt8) : Bool := c = 0x20 ∨ c = 0x09 ∨ c = 0x0d ∨ c = 0x0a

/-- A blank that may stand at the end of a line. -/
def isFinalBlank (c : UInt8) : Bool := isBlank c ∨ c = 0x0b ∨ c = 0x0c

/-- Six more bits. The value is an `uint32_t`. -/
def shiftIn (v : ℕ) (vc : ℕ) : ℕ := v <<< 6 % 2 ^ 32 ||| vc

/-- The octets that a quantum stands for. -/
def quantumOctets (st : DecodeState) : Bytes :=
  (List.range st.nbo).map fun j => UInt8.ofNat (st.v >>> (8 * (2 - j)))

/-- The loop behind the padding: it takes blanks and everything else alike. -/
def skipTrailing : Bytes → Bytes
  | [] => []
  | c :: rest => if isFinalBlank c then skipTrailing rest else skipTrailing rest

/-- Convert a complete quantum. The result tells whether the loop over the text goes on. -/
def convertQuantum (rest : Bytes) : DecodeProc Bool := do
  let st ← getState
  if st.nbc = 4 then do
    onBuffer (ptlsBufferDoPushv (quantumOctets st))
    if st.nbo < 3 then
      if skipTrailing rest = [] then do
        setState { st with status := .done }
        return false
      else do
        setState { st with status := .failed }
        fail (.code incorrectBase64)
    else do
      setState { st with v := 0, nbo := 3, nbc := 0 }
      return true
  else return true

/-- A character without a value: the first sign of a padding group, which completes its quantum so
that nothing follows it, or the first of the final blanks, or an error. -/
def decodeOther (st : DecodeState) (c : UInt8) (rest : Bytes) : DecodeProc Unit :=
  if st.nbc = 2 ∧ c = padSign ∧ rest.head? = some padSign then do
    setState { st with nbc := 4, nbo := 1, v := st.v <<< 12 % 2 ^ 32 }
    let _ ← convertQuantum rest.tail
    return
  else if st.nbc = 3 ∧ c = padSign then do
    setState { st with nbc := 4, nbo := 2, v := st.v <<< 6 % 2 ^ 32 }
    let _ ← convertQuantum rest
    return
  else if (c :: rest).dropWhile isFinalBlank = [] then pure ()
  else do
    setState { st with nbo := 0, status := .failed }
    fail (.code incorrectBase64)

/-- The loop over the text. -/
def decodeLoop : Bytes → DecodeProc Unit
  | [] => pure ()
  | c :: rest => do
    let st ← getState
    if st.status ≠ .inProgress then pure ()
    else if base64Value c = -1 then decodeOther st c rest
    else do
      setState { st with nbc := st.nbc + 1, v := shiftIn st.v (base64Value c).toNat }
      let goesOn ← convertQuantum rest
      if goesOn then decodeLoop rest else pure ()

/-- Decode a line. -/
def ptlsBase64Decode (text : Bytes) : DecodeProc Unit := decodeLoop (text.dropWhile isBlank)

end Picotls.Pem
