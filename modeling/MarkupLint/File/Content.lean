import MarkupLint.Text.Basic
import MarkupLint.Text.Quoted

/-!
# Files as texts

The content of a file is a text in UTF-8, without exceptions. A carriage return ends a line like a
line feed does, and so do both together, so all three are read as line feeds. A byte order mark is
an ordinary character.

Reading a file as a text can fail in the file system or in the file itself. A run goes on without
such a file, so the reason is kept as data, apart from the faults of requests that make no sense. If
the bytes are at fault, the reason says which of them are the first that encode no character.
-/

namespace MarkupLint

/-- What is wrong with bytes that encode no character. -/
inductive DecodeReason where
  /-- No character starts with the first of them. -/
  | start
  /-- What follows does not go on with the character. -/
  | continuation
  /-- Nothing follows. -/
  | ended
deriving DecidableEq, Repr

/-- The first bytes of a content that encode no character. -/
structure DecodeFault where
  /-- The offset of the first of them. -/
  offset : Nat
  /-- The bytes, as far as a character could start with them. -/
  bytes : List UInt8
  /-- What is wrong with them. -/
  reason : DecodeReason
deriving DecidableEq, Repr

namespace DecodeFault

/-- The offset at or behind `offset` where no character starts. -/
def offsetFrom (content : ByteArray) (offset : Nat) : Nat :=
  if offset < content.size then
    match content.utf8DecodeChar? offset with
    | some c => offsetFrom content (offset + c.utf8Size)
    | none => offset
  else offset
termination_by content.size - offset
decreasing_by
  have hpos := c.utf8Size_pos
  omega

/-- How many bytes follow the first byte of a character, and the bounds of the next one. -/
def followers? (first : UInt8) : Option (Nat × UInt8 × UInt8) :=
  if 0xC2 ≤ first && first ≤ 0xDF then some (1, 0x80, 0xBF)
  else if first == 0xE0 then some (2, 0xA0, 0xBF)
  else if first == 0xED then some (2, 0x80, 0x9F)
  else if 0xE1 ≤ first && first ≤ 0xEF then some (2, 0x80, 0xBF)
  else if first == 0xF0 then some (3, 0x90, 0xBF)
  else if first == 0xF4 then some (3, 0x80, 0x8F)
  else if 0xF1 ≤ first && first ≤ 0xF3 then some (3, 0x80, 0xBF)
  else none

/-- The bytes with which a character goes on, if the next one has to lie in the given bounds. -/
def goingOn (low high : UInt8) : List UInt8 → List UInt8
  | [] => []
  | next :: rest =>
    if low ≤ next && next ≤ high then
      next :: rest.takeWhile fun byte => 0x80 ≤ byte && byte ≤ 0xBF
    else []

/-- What is wrong with the bytes from an offset on. -/
def ofBytes (offset : Nat) : List UInt8 → DecodeFault
  | [] => ⟨offset, [], .ended⟩
  | first :: rest =>
    match followers? first with
    | none => ⟨offset, [first], .start⟩
    | some (count, low, high) =>
      let good := goingOn low high (rest.take count)
      ⟨offset, first :: good, if good.length = rest.length then .ended else .continuation⟩

/-- What is wrong with a content that is not the encoding of a text. -/
def ofContent (content : ByteArray) : DecodeFault :=
  let offset := offsetFrom content 0
  ofBytes offset (content.toList.drop offset)

/-- What a fault says. -/
def message (fault : DecodeFault) : String :=
  let place := match fault.bytes with
    | [byte] => "byte 0x" ++ hexDigits 2 byte.toNat ++ " in position " ++ toString fault.offset
    | bytes => "bytes in position " ++ toString fault.offset ++ "-" ++
        toString (fault.offset + bytes.length - 1)
  let reason := match fault.reason with
    | .start => "invalid start byte"
    | .continuation => "invalid continuation byte"
    | .ended => "unexpected end of data"
  "'utf-8' codec can't decode " ++ place ++ ": " ++ reason

end DecodeFault

/-- The reason why a file cannot be read as a text. -/
inductive ReadFault where
  /-- There is nothing at the path. -/
  | missing
  /-- The path goes through a file as if it were a directory. -/
  | notDirectory
  /-- There is a directory at the path. -/
  | isDirectory
  /-- A name on the way, or the path as a whole, is too long. -/
  | nameTooLong
  /-- The file may not be read, or a directory on the way may not be entered. -/
  | denied
  /-- The bytes of the file are not the encoding of a text. -/
  | notText (fault : DecodeFault)
deriving DecidableEq, Repr

namespace ReadFault

/-- What a fault says of the file at a printed path. -/
def message (path : String) : ReadFault → String
  | missing => "[Errno 2] No such file or directory: " ++ Quoted.ofString path
  | notDirectory => "[Errno 20] Not a directory: " ++ Quoted.ofString path
  | isDirectory => "[Errno 21] Is a directory: " ++ Quoted.ofString path
  | nameTooLong => "[Errno 36] File name too long: " ++ Quoted.ofString path
  | denied => "[Errno 13] Permission denied: " ++ Quoted.ofString path
  | notText fault => fault.message

end ReadFault

/-- A text in which every line ends with a line feed. -/
def unifyLineEnds : Text → Text
  | [] => []
  | '\r' :: '\n' :: rest => '\n' :: unifyLineEnds rest
  | '\r' :: rest => '\n' :: unifyLineEnds rest
  | c :: rest => c :: unifyLineEnds rest

/-- The text of a file with the given content. -/
def decodeText (content : ByteArray) : Except ReadFault Text :=
  match String.fromUTF8? content with
  | some s => .ok (unifyLineEnds s.toList)
  | none => .error (.notText (.ofContent content))

end MarkupLint
