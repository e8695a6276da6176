import Taproom.Archive.Bytes
import Taproom.Archive.Zstd

/-!
Telling the kind of a file from its first bytes.
-/

namespace Taproom.Archive

inductive Kind where
  | gzip
  | zstd
  | bzip2
  | tar
  | zip
  /-- Anything else, which is taken as it is. -/
  | plain
  deriving DecidableEq, Repr

def sniffSize : Nat := 262

def hasAt (bs : Bytes) (start : Nat) (mark : String) : Bool :=
  let mark := ofText mark
  slice bs start mark.length = mark

/-- What pictures, sounds, films, fonts and programs start with: the texts that stand at some
places, and the least number of bytes. -/
structure Signature where
  marks : List (Nat × String)
  size : Nat := 0

def Signature.fits (s : Signature) (bs : Bytes) : Bool :=
  s.size ≤ bs.length && s.marks.all fun (start, mark) => hasAt bs start mark

def filmBrands : List String :=
  ["avc1", "dash", "iso2", "iso3", "iso4", "iso5", "iso6", "isom", "mmp4", "mp41", "mp42", "mp4v", "mp71",
   "MSNV", "NDAS", "NDSC", "NSDC", "NDSH", "NDSM", "NDSP", "NDSS", "NDXC", "NDXH", "NDXM", "NDXP", "NDXS",
   "F4V ", "F4P ", "M4V", "3gp", "M4A"]

def mediaSignatures : List Signature :=
  [⟨[(0, "BM")], 2⟩, ⟨[(0, "GIF")], 3⟩, ⟨[(0, "8BPS")], 4⟩, ⟨[(0, "AC10")], 4⟩, ⟨[(8, "WEBP")], 12⟩,
   ⟨[(0, "II*\x00")], 10⟩, ⟨[(0, "MM\x00*")], 10⟩, ⟨[(4, "moov")], 16⟩, ⟨[(4, "mdat")], 16⟩,
   ⟨[(12, "mdat")], 16⟩, ⟨[(0, "RIFF"), (8, "AVI")], 11⟩, ⟨[(0, "FLV\x01")], 4⟩, ⟨[(0, "MThd")], 4⟩,
   ⟨[(0, "ID3")], 3⟩, ⟨[(0, "M4A ")], 11⟩, ⟨[(0, "OggS")], 4⟩, ⟨[(0, "fLaC")], 4⟩,
   ⟨[(0, "RIFF"), (8, "WAVE")], 12⟩, ⟨[(0, "#!AMR\n")], 12⟩, ⟨[(0, "FORM"), (8, "AIFF")], 12⟩,
   ⟨[(0, "wOFF\x00\x01\x00\x00")], 8⟩, ⟨[(0, "wOF2\x00\x01\x00\x00")], 8⟩, ⟨[(0, "OTTO\x00")], 5⟩,
   ⟨[(0, "\x00\x01\x00\x00\x00")], 5⟩, ⟨[(0, "\x00\x00\x01\x00")], 4⟩,
   ⟨[(0, "\x00asm\x01\x00\x00\x00")], 8⟩, ⟨[(0, "dex\n"), (36, "p")], 37⟩,
   ⟨[(0, "dey\n"), (40, "dex\n"), (76, "p")], 101⟩] ++
  filmBrands.map fun brand => ⟨[(4, "ftyp"), (8, brand)], 11⟩

def isMedia (bs : Bytes) : Bool := mediaSignatures.any (·.fits bs)

/-! ### Office documents, which are zip archives with a certain start -/

def nextHeader? (bs : Bytes) (start : Nat) : Option Nat :=
  (List.range (bs.length - start)).findSome? fun i =>
    if hasAt bs (start + i) "PK\x03\x04" then some (start + i) else none

def isOfficeName (bs : Bytes) (start : Nat) : Bool := ["word/", "ppt/", "xl/"].any (hasAt bs start)

def headerSize : Nat := 30

/-- Whether the bytes are those of an office document. Its main directory comes first, or third or
fourth after one of the usual first entries. -/
def isOffice (bs : Bytes) : Bool :=
  hasAt bs 0 "PK\x03\x04" &&
  (isOfficeName bs headerSize ||
    (["[Content_Types].xml", "_rels/.rels", "docProps"].any (hasAt bs headerSize) &&
      (((nextHeader? bs (ofLittle (slice bs 18 4) + 49)).bind fun second =>
        nextHeader? bs (second + headerSize)).any fun third =>
          isOfficeName bs (third + headerSize) ||
            (nextHeader? bs (third + headerSize + 26)).any fun fourth =>
              isOfficeName bs (fourth + headerSize))))

def kindOf (bytes : Bytes) : Kind :=
  let bs := bytes.take sniffSize
  if Zstd.magic.isPrefixOf bs then .zstd
  else if isMedia bs || isOffice bs then .plain
  else
    match bs with
    | 0x1f :: 0x8b :: 0x08 :: _ => .gzip
    | 0x42 :: 0x5a :: 0x68 :: _ => .bzip2
    | 0x50 :: 0x4b :: a :: b :: _ =>
      if (a = 3 || a = 5 || a = 7) && (b = 4 || b = 6 || b = 8) then .zip
      else if slice bs 257 5 = ofText "ustar" then .tar
      else .plain
    | _ => if slice bs 257 5 = ofText "ustar" then .tar else .plain

end Taproom.Archive
