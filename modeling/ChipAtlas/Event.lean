import ChipAtlas.Violation

/-!
# What is reported along the way

Decoding, counting fuses and publishing files report their progress as events. An event has a level
of importance and a wording; the events of a run stand in the order in which they happened.
-/

namespace ChipAtlas

/-- The two variants of the file form. They differ in the routing section and in the layout that
their tile grids are exported in. -/
inductive Variant where
  | legacy
  | current
  deriving DecidableEq, Repr

/-- The name of a variant. -/
def Variant.name : Variant → String
  | .legacy => "Legacy"
  | .current => "Current"

/-- The key that marks a legacy file. -/
def legacyKey : String := "ph1_100"

/-- The variant of the files written with a key. -/
def Variant.ofKey (key : String) : Variant :=
  if key = legacyKey then .legacy else .current

/-- A relocated configuration bit whose target cell has no addressable tile of the wanted kind. -/
structure UnresolvedRemap where
  bit : String
  owner : String
  x : Int
  y : Int
  kind : String
  deriving DecidableEq, Repr

/-- The wording of an unresolved relocation. -/
def UnresolvedRemap.message (u : UnresolvedRemap) : String :=
  s!"{u.owner}/{u.bit}: no {u.kind} template at x{u.x}y{u.y}"

/-- How important an event is. -/
inductive Level where
  | debug
  | info
  | warn
  | error
  deriving DecidableEq, Repr

/-- The name of a level. -/
def Level.name : Level → String
  | .debug => "DEBUG"
  | .info => "INFO"
  | .warn => "WARN"
  | .error => "ERROR"

/-- What is reported along the way. -/
inductive Event where
  /-- A section begins at a line. -/
  | entered (part : Section) (line : Nat)
  | headerRead (architectures : Nat) (variant : Variant)
  | architectureRead (name : String) (records : Nat)
  | routingRead (entries : Nat)
  | modelsRead (models : Nat)
  | catalogsRead (catalogs : Nat)
  | tilesRead (maxCol maxRow : UInt32) (tiles : Nat)
  /-- A tile takes over the name of an earlier one. -/
  | nameTakenOver (name : String) (earlier : Nat)
  | decoded (lines catalogs bits : Nat) (maxCol maxRow : UInt32) (tiles : Nat)
  | unresolved (remap : UnresolvedRemap)
  | fusesCounted (fuses pllBits missed : Nat)
  | decoding (path : String)
  | wrote (path : String)
  | wroteAll (path : String) (files : Nat)
  | notRemoved (path : String) (cause : IoCause)
  /-- The outputs of an input file were not made. -/
  | failed (path reason : String)
  deriving DecidableEq, Repr

/-- The level of an event. -/
def Event.level : Event → Level
  | .decoded .. | .fusesCounted .. | .decoding _ | .wroteAll .. => .info
  | .nameTakenOver .. | .unresolved _ | .notRemoved .. => .warn
  | .failed .. => .error
  | _ => .debug

/-- The wording of an event. -/
def Event.message : Event → String
  | .entered part line => s!"{part.name} at line {line}"
  | .headerRead architectures variant =>
    s!"{architectures} architecture(s), {variant.name} schema"
  | .architectureRead name records => s!"architecture {name}: {records} indexed records"
  | .routingRead entries => s!"routing: {entries} wire entries"
  | .modelsRead models => s!"{models} models"
  | .catalogsRead catalogs => s!"{catalogs} bcc catalogs"
  | .tilesRead maxCol maxRow tiles =>
    s!"bil_info: {maxCol.toNat}x{maxRow.toNat}, {tiles} instances"
  | .nameTakenOver name earlier =>
    s!"duplicate instance name {name}, replacing instance {earlier}"
  | .decoded lines catalogs bits maxCol maxRow tiles =>
    s!"decoded {lines} lines: {catalogs} catalogs, {bits} bits, " ++
      s!"{maxCol.toNat}x{maxRow.toNat} grid, {tiles} instances"
  | .unresolved remap => s!"unresolved remap: {remap.message}"
  | .fusesCounted fuses pllBits missed =>
    s!"fuse map: {fuses} fuses, {pllBits} pll bits, {missed} unresolved"
  | .decoding path => s!"decoding {path}"
  | .wrote path => s!"wrote {path}"
  | .wroteAll path files => s!"{path}: wrote {files} files"
  | .notRemoved path cause => s!"cannot remove {path}: {cause.message}"
  | .failed path reason => s!"{path}: {reason}"

/-- An event as one line: its level and its wording. -/
def Event.line (e : Event) : String := s!"{e.level.name} {e.message}"

end ChipAtlas
