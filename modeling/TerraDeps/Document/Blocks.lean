import TerraDeps.Json.Reader
import TerraDeps.Json.Writer
import TerraDeps.ModuleBlock
import TerraDeps.Text.Pieces

/-!
# Module blocks of a JSON document

The JSON syntax keeps module blocks under the key `module`, as an object of bodies by name. The
object, and each body, may also be given as an array of them; the blocks come in document order.
Lines are not known here.
-/

set_option autoImplicit false

namespace TerraDeps.Document

/-- Whether a string has templates, which makes it no literal. -/
def isTemplated (s : String) : Bool :=
  Text.occurs ['$', '{'] s.toList || Text.occurs ['%', '{'] s.toList

/-- The `source` argument of a block: a string without templates, if it is given. -/
def literalSource (name : String) : Option Json → Except ScanError (Option String)
  | none => .ok none
  | some (.string s) =>
    if isTemplated s then .error ⟨0, .sourceNotLiteral name⟩ else .ok (some s)
  | some _ => .error ⟨0, .sourceNotLiteral name⟩

/-- The `version` argument of a block as text; a value that is no string is written as JSON. -/
def versionText : Json → String
  | .string s => s
  | value => value.compact

/-- The block that a body gives under a name. -/
def blockOf (name : String) (body : Json) : Except ScanError ModuleBlock :=
  match body with
  | .object _ =>
    (literalSource name (body.get? "source")).map fun source =>
      ⟨name, source, (body.get? "version").map versionText, 0⟩
  | _ => .error ⟨0, .moduleNotObject name⟩

/-- The blocks of a group, which must be an object of bodies by name. -/
def groupBlocks : Json → Except ScanError (List ModuleBlock)
  | .object members =>
    (members.flatMap fun (name, body) => body.items.map fun item => (name, item)).mapM
      fun (name, item) => blockOf name item
  | _ => .error ⟨0, .modulesNotObject⟩

/-- The module blocks of a document, in order. -/
def blocks (document : Json) : Except ScanError (List ModuleBlock) :=
  match document.get? "module" with
  | none => .ok []
  | some modules => (modules.items.mapM groupBlocks).map List.flatten

/-- The module blocks of a JSON text, in order. -/
def scan (text : String) : Except ScanError (List ModuleBlock) :=
  match Json.parse text with
  | .error line => .error ⟨line, .invalidDocument⟩
  | .ok document => blocks document

end TerraDeps.Document
