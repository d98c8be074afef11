import DeployTarget.Digest

/-!
# The key of a deployment target

A target is identified by the digest of its segments joined by dashes: the
service's identifier where there is a service, the environment's identifier and the
parts that its kind names.  The key is persisted elsewhere, so the joined text and
the digest never change.
-/

namespace DeployTarget

/-- The identity of a target: forty lower case hexadecimal digits. -/
structure Key where
  text : String
deriving DecidableEq, Repr

namespace Key

def separator : Char :=
  '-'

def shortLength : Nat :=
  6

/-- The segments of a key, in order. -/
def segments (service : Option String) (environment : String) (parts : List String) :
    List String :=
  service.toList ++ environment :: parts

/-- The text that is digested: the segments joined by the separator. -/
def preimage (service : Option String) (environment : String) (parts : List String) :
    String :=
  String.ofList
    ([separator].intercalate ((segments service environment parts).map String.toList))

def generate (service : Option String) (environment : String) (parts : List String) : Key :=
  ⟨String.ofList (Digest.sha1 (preimage service environment parts).toUTF8.toList).hex⟩

/-- The first digits of a key, by which older kinds are known. -/
def short (key : Key) : String :=
  String.ofList (key.text.toList.take shortLength)

end Key

end DeployTarget
