import Settlement.Config.Derived
/-!
Configurations that hold on to their catalog once it is built. What they hold stands under a name
that is not public, so it is neither written nor read.
-/
namespace Settlement.Config

/-- A configuration with the catalog that was built of it, if one was. -/
structure Held where
  config : Config
  built : Option (Catalog Float)

/-- What stands under a name: a parameter's document, or what is held. -/
inductive Held.Entry where
  | setting (value : Document)
  | catalog (built : Option (Catalog Float))

namespace Held

/-- Nothing is built yet. -/
def fresh (config : Config) : Held := ⟨config, none⟩

/-- The catalog, which is built where it is first asked for. -/
def catalog (held : Held) : Except Fault (Catalog Float × Held) :=
  match held.built with
  | some built => .ok (built, held)
  | none => do
    let built ← held.config.catalog
    return (built, { held with built := some built })

/-- The name of what is held. -/
def catalogName : Text := "_catalog"

/-- All that the configuration has, by name. -/
def entries (held : Held) : List (Text × Entry) :=
  held.config.fields.map (fun (name, value) => (name, .setting value))
    ++ [(catalogName, .catalog held.built)]

def Entry.setting? : Entry → Option Document
  | setting value => some value
  | catalog _ => none

/-- The parameters alone. -/
def toDocument (held : Held) : Document :=
  .object ((held.entries.filter fun entry => isPublicName entry.1).filterMap fun (name, entry) =>
    entry.setting?.map (name, ·))

/-- A whole number of too many digits has no text. -/
def isLong (value : Int) : Bool := Decimal.mostDigits < (Decimal.digits value.natAbs).length

def write (indent : Option Nat) (held : Held) : Except Fault String :=
  if held.toDocument.wholes.any isLong then .error .wholeTooLong
  else .ok (held.toDocument.write (.full indent))

def ofDocument (document : Document) : Except Fault Held := fresh <$> Config.ofDocument document

def read (source : Text) : Except Fault Held := do ofDocument (← Document.read source)

end Held

end Settlement.Config
