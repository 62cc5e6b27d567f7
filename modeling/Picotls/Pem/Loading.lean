import Picotls.Pem.Decoding

/-!
# Loading an object from a PEM file

`ptls_get_pem_object_malloc` looks for the line that begins an object, reads the lines up to the one
that ends it to know how much memory is needed, goes back and decodes them into memory that it
obtains for them. All reading is done by `fgets` with room for 255 characters, so a file is the list
of what these calls return. The library is built without `PTLS_MEMORY_DEBUG`, as by default.
-/

namespace Picotls.Pem

open Foundation Procedure Buffers

/-! ## Files -/

/-- What one call of `fgets` reads: the characters up to a line feed, as far as there is room. -/
def readLine : ℕ → Bytes → Bytes
  | 0, _ => []
  | _, [] => []
  | room + 1, c :: rest => if c = 0x0a then [c] else c :: readLine room rest

/-- What a number of calls of `fgets` read. -/
def readLines : ℕ → Bytes → List Bytes
  | 0, _ => []
  | _, [] => []
  | count + 1, content =>
    readLine 255 content :: readLines count (content.drop (readLine 255 content).length)

/-- A file as it is read from its start to its end. -/
def fileLines (content : Bytes) : List Bytes := readLines content.length content

/-- What the system does: the answers of the allocator, at which line reading breaks off when the
size is determined and when the object is decoded, and calls that fail. -/
structure Host where
  answer : ℕ → ℕ → ℕ → Option ℕ
  ndebug : Bool
  beginFails : Bool
  ftellFails : Bool
  fseekFails : Bool
  sizeReads : Option ℕ
  decodeReads : Option ℕ

/-- The library without memory debugging. -/
def Host.build (host : Host) : Build := ⟨host.answer, false, host.ndebug⟩

/-- The lines that can be read. -/
def readable (reads : Option ℕ) (lines : List Bytes) : List Bytes :=
  match reads with
  | none => lines
  | some count => lines.take count

/-! ## Separator lines -/

abbrev pemLabelNotFound : Code := errorClassInternal + 51

/-- Five dashes. -/
abbrev dashes : Bytes := [0x2d, 0x2d, 0x2d, 0x2d, 0x2d]

/-- The word in the line that begins an object. -/
abbrev beginWord : Bytes := ['B', 'E', 'G', 'I', 'N'].map octet

/-- The word in the line that ends an object. -/
abbrev endWord : Bytes := ['E', 'N', 'D'].map octet

/-- The line starts with dashes, the word, a space, the label and dashes. -/
def isSeparatorLine (line beginOrEnd label : Bytes) : Bool :=
  dashes.isPrefixOf line &&
    beginOrEnd.isPrefixOf (line.drop 5) &&
    (line.drop (5 + beginOrEnd.length)).head? = some 0x20 &&
    label.isPrefixOf (line.drop (5 + beginOrEnd.length + 1)) &&
    dashes.isPrefixOf (line.drop (5 + beginOrEnd.length + 1 + label.length))

/-- The line ends an object with the label. -/
def endsObject (label line : Bytes) : Bool := isSeparatorLine (cString line) endWord label

/-! ## Loading -/

/-- The lines behind the one that begins an object. -/
def findBegin (label : Bytes) : List Bytes → Option (List Bytes)
  | [] => none
  | line :: lines =>
    if isSeparatorLine (cString line) beginWord label then some lines else findBegin label lines

/-- The number of characters up to the line that ends the object. -/
def ptlsGetPemObjectCapacity (label : Bytes) : List Bytes → ℕ → Except Code ℕ
  | [], _ => .error pemLabelNotFound
  | line :: lines, capacity =>
    if endsObject label line then .ok capacity
    else if sizeMax - capacity < (cString line).length then .error Error.noMemory
    else ptlsGetPemObjectCapacity label lines (capacity + (cString line).length)

/-- Obtain the memory for an object. -/
def ptlsPemBufferInitCapacity (capacity : ℕ) : Buffers.Proc Unit := do
  let capacity := if capacity = 0 then 1 else capacity
  match ← malloc capacity with
  | none => fail (.code Error.noMemory)
  | some base => setBuf (ptlsBufferInit base capacity true)

/-- The loop that decodes the lines of an object. -/
def decodeObject (label : Bytes) : List Bytes → DecodeProc Unit
  | [] => pure ()
  | line :: lines =>
    if endsObject label line then do
      let st ← getState
      if st.status = .done ∨ st.status = .inProgress ∧ st.nbc = 0 then pure ()
      else fail (.code incorrectBase64)
    else do
      ptlsBase64Decode (cString line)
      decodeObject label lines

/-- Decode an object into the buffer, and return the code. -/
def decodeInto (label : Bytes) (lines : List Bytes) : Buffers.Proc ℤ := fun build s =>
  match decodeObject label lines build (s, ptlsBase64DecodeInit) with
  | (.ok (), (s, _)) => (.ok 0, s)
  | (.error (.code c), (s, _)) => (.ok c, s)
  | (.error stop, (s, _)) => (.error stop, s)

/-- Hand the memory over, with its address and length, or release it. -/
def finishObject (ret : ℤ) : Buffers.Proc (ℤ × Option (ℕ × ℕ)) := do
  let buf ← getBuf
  if ret = 0 ∧ 0 < buf.off then return (ret, some (buf.base, buf.off))
  else do
    modifyMemory fun m => m.write buf.base (zeros buf.off)
    free buf.base
    return (ret, none)

/-- Load an object: the return code, and the memory that is handed over. -/
def ptlsGetPemObjectMalloc (host : Host) (label : Bytes) (lines : List Bytes) :
    Buffers.Proc (ℤ × Option (ℕ × ℕ)) :=
  match if host.beginFails then none else findBegin label lines with
  | none => finishObject pemLabelNotFound
  | some lines =>
    if host.ftellFails then return (-1, none)
    else
      match ptlsGetPemObjectCapacity label (readable host.sizeReads lines) 0 with
      | .error c => return (c, none)
      | .ok capacity =>
        if host.fseekFails then return (-1, none)
        else do
          match ← attempt (ptlsPemBufferInitCapacity capacity) with
          | .error (.code c) => return (c, none)
          | .error stop => fail stop
          | .ok () => do
            let ret ← decodeInto label (readable host.decodeReads lines)
            finishObject ret

/-- The buffer before there is any memory. -/
def emptyBuffer : PtlsBuffer := ⟨0, 0, 0, false, 0, false⟩

/-- Load an object from a file, with the memory in use at the beginning. -/
def loadPemObject (host : Host) (label content : Bytes) (heap : Heap) :
    Except Stop (ℤ × Option (ℕ × ℕ)) × Store :=
  ptlsGetPemObjectMalloc host label (fileLines content) host.build ⟨heap, emptyBuffer⟩

end Picotls.Pem
