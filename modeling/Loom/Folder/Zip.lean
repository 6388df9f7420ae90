import Loom.Files

/-!
# Archives as Bytes

An archive in the zip format, its entries stored as they are. Each entry has a
header before its bytes and a record in the directory at the end, and the last
record says where the directory is.
-/

namespace Loom.Folder.Zip

open Loom.Text

def little (width n : Nat) : List UInt8 :=
  (List.range width).map fun i => UInt8.ofNat (n / Nat.pow 256 i)

def checkBit (crc : UInt32) : UInt32 :=
  if crc &&& 1 == 1 then (crc >>> 1) ^^^ 0xEDB88320 else crc >>> 1

def checkByte (crc : UInt32) (b : UInt8) : UInt32 :=
  (List.range 8).foldl (fun c _ => checkBit c) (crc ^^^ b.toUInt32)

def checksum (bs : List UInt8) : UInt32 :=
  bs.foldl checkByte 0xFFFFFFFF ^^^ 0xFFFFFFFF

/-- What a header and a record both tell of an entry: the version needed, names in
    UTF-8, bytes as they are, the first day of 1980, the check and the sizes. -/
def description (name bytes : List UInt8) : List UInt8 :=
  little 2 20 ++ little 2 0x0800 ++ little 2 0 ++ little 2 0 ++ little 2 0x21 ++
    little 4 (checksum bytes).toNat ++ little 4 bytes.length ++ little 4 bytes.length ++
    little 2 name.length ++ little 2 0

def entryBytes (name bytes : List UInt8) : List UInt8 :=
  little 4 0x04034B50 ++ description name bytes ++ name ++ bytes

def recordBytes (name bytes : List UInt8) (place : Nat) : List UInt8 :=
  little 4 0x02014B50 ++ little 2 20 ++ description name bytes ++ little 2 0 ++ little 2 0 ++
    little 2 0 ++ little 4 0 ++ little 4 place ++ name

def partsFrom (place : Nat) : Archive → List UInt8 × List UInt8
  | [] => ([], [])
  | (name, text) :: rest =>
    let entry := entryBytes (utf8 name) (utf8 text)
    let (entries, records) := partsFrom (place + entry.length) rest
    (entry ++ entries, recordBytes (utf8 name) (utf8 text) place ++ records)

def zipBytes (archive : Archive) : List UInt8 :=
  let (entries, records) := partsFrom 0 archive
  entries ++ records ++ little 4 0x06054B50 ++ little 2 0 ++ little 2 0 ++
    little 2 archive.length ++ little 2 archive.length ++ little 4 records.length ++
    little 4 entries.length ++ little 2 0

end Loom.Folder.Zip
