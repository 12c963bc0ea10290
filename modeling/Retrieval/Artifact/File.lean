import Retrieval.Artifact.Binary
import Retrieval.Artifact.Document
import Retrieval.Files.Replace

/-!
Artifacts in files. Writing takes any artifact, and reading answers only one that makes sense.
-/
namespace Retrieval

/-- The two forms that an artifact is stored in. -/
inductive ArtifactForm where
  | document
  | binary
deriving DecidableEq

namespace Artifact

def encode : ArtifactForm → Artifact → Bytes
  | .document, a => textBytes a.document
  | .binary, a => a.toBytes

/-- A document has to be text before it can be malformed. -/
def decode : ArtifactForm → Bytes → Except Error Artifact
  | .document, bytes =>
    match ofTextBytes? bytes with
    | none => .error .io
    | some text => (ofDocument? text).elim (.error .malformed) .ok
  | .binary, bytes => (ofBytes? bytes).elim (.error .malformed) .ok

def save (a : Artifact) (form : ArtifactForm) (files : FileTree) (path : Path) :
    FileTree × Except Error Unit :=
  match files.replace path (encode form a) with
  | (files, .ok ()) => (files, .ok ())
  | (files, .error _) => (files, .error .io)

def load (form : ArtifactForm) (files : FileTree) (path : Path) : Except Error Artifact := do
  match files.read path with
  | .error _ => throw .io
  | .ok bytes =>
    let a ← decode form bytes
    a.validate
    return a

end Artifact
end Retrieval
