import TemplateAnalysis.Hexadecimal
import TemplateAnalysis.XxHash

/-!
# Fingerprints of internal names

A fingerprint is the hash of a qualified name, mixed with a constant of the kind
of thing that is named, so that a namespace and a function spelled alike differ.
Overloads of a function are told apart by their signature, instances of a
template by their key.
-/

namespace TemplateAnalysis

structure Fingerprint where
  word : UInt64
deriving DecidableEq, Inhabited, Repr

namespace Fingerprint

def empty : Fingerprint := ⟨0⟩

def entityDomain : UInt64 := 0x2fac10b63a6cc57c

def functionDomain : UInt64 := 0x5ea77ffbcdf5f302

def instanceDomain : UInt64 := 0x7d3c8b4a92e15f6d

def ofName (qualified : String) : Fingerprint :=
  ⟨entityDomain ^^^ XxHash.hashText 0 qualified⟩

/-- The fingerprint of an overload: its qualified name seeds the hash of its
signature. -/
def ofFunction (qualified signature : String) : Fingerprint :=
  ⟨functionDomain ^^^ XxHash.hashText (XxHash.hashText 0 qualified) signature⟩

/-- The fingerprint of an instance: the path of its scope seeds the hash of its
key. -/
def ofInstance (scopePath key : String) : Fingerprint :=
  ⟨instanceDomain ^^^ XxHash.hashText (XxHash.hashText 0 scopePath) key⟩

def isEmpty (f : Fingerprint) : Bool := f.word == 0

def text (f : Fingerprint) : String := Hexadecimal.word f.word

end Fingerprint

/-- An identifier in internal names: its length in bytes, then itself. -/
def sourceName (name : String) : String := toString name.utf8ByteSize ++ name

end TemplateAnalysis
