import JointGuard.Config.Record
import JointGuard.Toml.Document

/-! # Reading configurations

A text is read in stages: it has to be a TOML document, the document has to hold a configuration,
and the configuration has to be free of faults.  The first stage that fails is reported. -/

namespace JointGuard
open Text

/-- A text that holds no configuration. -/
inductive ReadFault where
  | notToml
  | record (fault : RecordFault)

/-- What is said about a text that is no document, where there are no better words for it. -/
def ReadFault.plainComplaint : String := "not a TOML document"

/-- The wording of a syntax error is left to whoever reads documents: it is `complaint`. -/
def ReadFault.message (fault : ReadFault) (complaint : String := plainComplaint) : String :=
  match fault with
  | .notToml => complaint
  | .record fault => fault.message

/-- A message that is too long for a notice is dropped. -/
def ReadFault.toFault (complaint : String) (fault : ReadFault) : Fault :=
  .config (.unreadable (.orEmpty (fault.message complaint)))

/-- Why the content of a file cannot be had. -/
inductive AccessFault where
  | notFound
  | isDirectory
  | notText
  deriving DecidableEq

def AccessFault.message : AccessFault → String
  | .notFound => "No such file or directory (os error 2)"
  | .isDirectory => "Is a directory (os error 21)"
  | .notText => "stream did not contain valid UTF-8"

def AccessFault.toFault (fault : AccessFault) : Fault :=
  .config (.inaccessible (.orEmpty fault.message))

/-- What a path leads to. -/
inductive Target where
  | nothing
  | directory
  | file (bytes : ByteArray)

def Target.text : Target → Except AccessFault String
  | .nothing => .error .notFound
  | .directory => .error .isDirectory
  | .file bytes =>
    match String.fromUTF8? bytes with
    | none => .error .notText
    | some text => .ok text

namespace Config

/-- Reads a configuration without checking it. -/
def read (text : String) : Except ReadFault Config :=
  match Toml.parse? text with
  | none => .error .notToml
  | some document => (ofTable document).mapError .record

/-- Reads a configuration and checks it.  `complaint` words the syntax error of a text. -/
def ofText (text : String) (complaint : String → String := fun _ => ReadFault.plainComplaint) :
    Except Fault Config := do
  let config ← (read text).mapError (ReadFault.toFault (complaint text))
  config.check.mapError .config
  return config

def load (target : Target) (complaint : String → String := fun _ => ReadFault.plainComplaint) :
    Except Fault Config := do
  let text ← target.text.mapError AccessFault.toFault
  ofText text complaint

end Config

end JointGuard
