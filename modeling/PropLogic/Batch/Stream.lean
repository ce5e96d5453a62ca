import PropLogic.Batch

/-!
# Batches from byte streams

A stream delivers its bytes in chunks of any size, and it ends where no chunk is left. Its lines are
cut behind the line feeds and decoded one by one, so the first line that is not UTF-8 ends the batch
without entries.
-/

namespace PropLogic.Batch

def lineFeed : UInt8 := 0x0a

/-- The lines of a stream, with their line feeds. The bytes behind the last line feed of a chunk
wait in `unfinished` for the next chunk. -/
def streamLines (unfinished : List UInt8) : List ByteArray → List (List UInt8)
  | [] => Text.lastLine unfinished
  | chunk :: chunks =>
      let (complete, rest) := Text.completeLines lineFeed (unfinished ++ chunk.data.toList)
      complete ++ streamLines rest chunks

/-- The characters of a line without its line feed, if its bytes are UTF-8. -/
def decodeLine? (line : List UInt8) : Option (List Char) :=
  (String.fromUTF8? line.toByteArray).map fun s => Text.chomp s.toList

/-- The entries of lines as they are decoded, up to the first that is not UTF-8. -/
def decodedEntries (number : Nat) : List (Option (List Char)) → Except ReadError (List Entry)
  | [] => .ok []
  | none :: _ => .error .invalidUtf8
  | some line :: rest =>
      (decodedEntries (number + 1) rest).map ((ofLine? number line).toList ++ ·)

def ofStream (chunks : List ByteArray) : Except ReadError (List Entry) :=
  decodedEntries 1 ((streamLines [] chunks).map decodeLine?)

def ofBytes (bytes : ByteArray) : Except ReadError (List Entry) := ofStream [bytes]

end PropLogic.Batch
