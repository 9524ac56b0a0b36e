/-!
# Where printed text goes

A stream takes bytes in portions of limited size and up to a limit in all; a
file has a cursor, at which bytes are read and written.  A writer that gets
only part of its bytes accepted goes on with the rest.
-/

set_option autoImplicit false

namespace HalfMatrix

inductive WriteError where
  /-- The stream took none of the bytes. -/
  | nothingTaken
  | full
  deriving DecidableEq, Repr

def WriteError.message : WriteError → String
  | nothingTaken => "failed to write whole buffer"
  | full => "stream is full"

structure Stream where
  /-- The bytes taken so far. -/
  taken : ByteArray := .empty
  /-- The greatest number of bytes taken at once. -/
  chunk : Option Nat := none
  /-- The greatest number of bytes taken in all. -/
  limit : Option Nat := none
  /-- When it is full, the stream takes nothing instead of failing. -/
  silent : Bool := false

namespace Stream

def atMost (greatest : Option Nat) (count : Nat) : Nat :=
  match greatest with
  | none => count
  | some greatest => min greatest count

def room (stream : Stream) (count : Nat) : Nat :=
  atMost (stream.limit.map (· - stream.taken.size)) count

def portion (stream : Stream) (count : Nat) : Except WriteError Nat :=
  let room := stream.room count
  if room = 0 ∧ 0 < count ∧ ¬ stream.silent then .error .full
  else .ok (atMost stream.chunk room)

def take (stream : Stream) (bytes : ByteArray) : Stream :=
  { stream with taken := stream.taken ++ bytes }

/-- Writes all bytes, portion after portion, as far as they are taken. -/
def writeAll (stream : Stream) (bytes : ByteArray) : Stream × Except WriteError Unit :=
  if bytes.size = 0 then (stream, .ok ())
  else
    match stream.portion bytes.size with
    | .error error => (stream, .error error)
    | .ok count =>
        if 0 < count then
          writeAll (stream.take (bytes.extract 0 count)) (bytes.extract count bytes.size)
        else (stream, .error .nothingTaken)
termination_by bytes.size
decreasing_by
  simp only [ByteArray.size_extract]
  omega

end Stream

structure File where
  content : ByteArray := .empty
  cursor : Nat := 0

namespace File

def seek (file : File) (cursor : Nat) : File := { file with cursor }

def remaining (file : File) : ByteArray := file.content.extract file.cursor file.content.size

def atEnd (file : File) : File := { file with cursor := max file.cursor file.content.size }

/-- Overwrites at the cursor.  A gap before it is filled with zeros. -/
def write (file : File) (bytes : ByteArray) : File :=
  if bytes.size = 0 then file
  else
    let gap : ByteArray := ⟨Array.replicate (file.cursor - file.content.size) 0⟩
    let stop := file.cursor + bytes.size
    { content :=
        file.content.extract 0 file.cursor ++ gap ++ bytes ++
          file.content.extract stop file.content.size
      cursor := stop }

end File

end HalfMatrix
