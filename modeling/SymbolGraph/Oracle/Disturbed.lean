import SymbolGraph.Oracle.Basic

/-!
# Disturbed oracles

A front end behind which another one stands, and which can be told to misbehave: to refuse
a question, or to give an answer of its own. A question that is refused does not reach the
front end behind, so that one's state does not change.
-/

namespace SymbolGraph

/-- A question about one thing. -/
inductive FaultSite
  | file (key : FileKey)
  | symbol (key : SymbolKey)
  | annotationUse (key : AnnotationKey)
  | type (key : TypeKey)
  | classType (key : SymbolKey)
  | starProjectedType (key : SymbolKey)
  | returnType (function : SymbolKey)
  | resolveInteropReturnType (function : SymbolKey)
  | classifier (key : TypeKey)
  | classByName (name : String)
  | evaluateConstant (key : ExprKey)
  | lineCol (key : FileKey)
deriving DecidableEq

/-- A fault strikes a number of times, or always. -/
structure Fault where
  remaining : Option Nat := none
  message : String

/-- What was arranged for, in front of a state of the front end behind. -/
structure Disturbed (σ : Type) where
  inner : σ
  faults : List (FaultSite × Fault) := []
  classes : List (String × SymbolKey) := []
  newFiles : Option (List FileKey) := none

namespace Disturbed

variable {σ α : Type}

/-- A fault takes the place of an earlier one for the same question. -/
def arrange (d : Disturbed σ) (site : FaultSite) (fault : Fault) : Disturbed σ :=
  { d with faults := (site, fault) :: d.faults.filter (·.1 ≠ site) }

def clearFaults (d : Disturbed σ) : Disturbed σ := { d with faults := [] }

def overrideClass (d : Disturbed σ) (name : String) (key : SymbolKey) : Disturbed σ :=
  { d with classes := (name, key) :: d.classes }

def overrideNewFiles (d : Disturbed σ) (files : List FileKey) : Disturbed σ :=
  { d with newFiles := some files }

/-- The message of the fault that strikes now, if one does. It is used up a little. -/
def strike (site : FaultSite) : StateM (Disturbed σ) (Option String) := fun d =>
  match d.faults.lookup site with
  | none | some ⟨some 0, _⟩ => (none, d)
  | some ⟨none, message⟩ => (some message, d)
  | some ⟨some (n + 1), message⟩ => (some message, d.arrange site ⟨some n, message⟩)

/-- Passes a question on. -/
def forward (question : StateM σ α) : StateM (Disturbed σ) α := fun d =>
  let (a, inner) := question d.inner
  (a, { d with inner })

/-- Refuses the question if a fault strikes, and passes it on otherwise. -/
def refuse (site : FaultSite) (question : Answer σ α) :
    StateM (Disturbed σ) (Except OracleError α) := do
  match ← strike site with
  | some message => return .error (.other message)
  | none => forward question

/-- Knows no answer if a fault strikes. -/
def forget (site : FaultSite) (question : StateM (Disturbed σ) (Option α)) :
    StateM (Disturbed σ) (Option α) := do
  match ← strike site with
  | some _ => return none
  | none => question

end Disturbed

/-- The front end in front of another one. -/
def Oracle.disturbed {σ : Type} (o : Oracle σ) : Oracle (Disturbed σ) where
  newFiles := fun d =>
    match d.newFiles with
    | some files => (files, d)
    | none => Disturbed.forward o.newFiles d
  file key := Disturbed.refuse (.file key) (o.file key)
  declarationsInPackage package := Disturbed.forward (o.declarationsInPackage package)
  classByName name := Disturbed.forget (.classByName name) fun d =>
    match d.classes.lookup name with
    | some key => (some key, d)
    | none => Disturbed.forward (o.classByName name) d
  symbol key := Disturbed.refuse (.symbol key) (o.symbol key)
  annotationUse key := Disturbed.refuse (.annotationUse key) (o.annotationUse key)
  type key := Disturbed.refuse (.type key) (o.type key)
  classifier key := Disturbed.forget (.classifier key) (Disturbed.forward (o.classifier key))
  classType key := Disturbed.refuse (.classType key) (o.classType key)
  starProjectedType key := Disturbed.refuse (.starProjectedType key) (o.starProjectedType key)
  returnType key := Disturbed.refuse (.returnType key) (o.returnType key)
  resolveInteropReturnType function owner :=
    Disturbed.refuse (.resolveInteropReturnType function) (o.resolveInteropReturnType function owner)
  evaluateConstant key :=
    Disturbed.forget (.evaluateConstant key) (Disturbed.forward (o.evaluateConstant key))
  lineCol file offset :=
    Disturbed.forget (.lineCol file) (Disturbed.forward (o.lineCol file offset))
  nesting := o.nesting

end SymbolGraph
