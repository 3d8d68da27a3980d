import ChipAtlas.Zstandard.Reader

/-!
# Packing a content

A content is packed into a frame of stored blocks, all but the last of which are as long as a block
can be.

* `pack` — a file that holds a content;
* `content` — the content of a file, up to where it ends, breaks off or is damaged.
-/

namespace ChipAtlas.Zstandard

/-- The header of the frames that are written: no options, and a window of 128 KiB. -/
def plainHeader : List UInt8 := [0x00, 0x38]

/-- The three bytes in front of a stored block. -/
def storedHead (last : Bool) (length : Nat) : List UInt8 :=
  littleEndian 3 (8 * length + last.toNat)

/-- The blocks of a content, after the given number of which the last one comes. -/
def storedBlocks : Nat → List UInt8 → List UInt8
  | 0, bytes => storedHead true bytes.length ++ bytes
  | n + 1, bytes =>
    storedHead false longestBlock ++ bytes.take longestBlock ++
      storedBlocks n (bytes.drop longestBlock)

/-- A file that holds a content. -/
def pack (content : List UInt8) : List UInt8 :=
  magic ++ plainHeader ++ storedBlocks (content.length / longestBlock) content

/-- The content of a file. -/
def content (file : List UInt8) : List UInt8 :=
  (Reader.ofFile file).rest (file.length * longestBlock)

end ChipAtlas.Zstandard
