import KnowledgeGraph.Fault.Basic
/-!
# Checked input

A `Checked` value is either there or a list of issues, and putting two
together keeps the issues of both, the first's in front. So a record
read field by field reports all its bad fields, in the order in which
the fields are read.
-/

namespace KnowledgeGraph

/-- A value, or what is wrong with it. -/
structure Checked (α : Type) where
  outcome : Except (List Issue) α

namespace Checked

variable {α β : Type}

def accept (a : α) : Checked α := ⟨.ok a⟩

def refuse (issues : List Issue) : Checked α := ⟨.error issues⟩

def defect (d : Defect) : Checked α := refuse [⟨[], d⟩]

def map (f : α → β) (x : Checked α) : Checked β :=
  match x.outcome with
  | .ok a => accept (f a)
  | .error issues => refuse issues

/-- A function and its argument, with the issues of both. -/
def apply (f : Checked (α → β)) (x : Checked α) : Checked β :=
  match f.outcome, x.outcome with
  | .ok f, .ok a => accept (f a)
  | .error these, .error those => refuse (these ++ those)
  | .error these, .ok _ => refuse these
  | .ok _, .error those => refuse those

instance : Applicative Checked where
  pure := accept
  map := map
  seq f x := apply f (x ())

/-- A rule that only an accepted value is held against. -/
def andThen (x : Checked α) (rule : α → Checked β) : Checked β :=
  match x.outcome with
  | .ok a => rule a
  | .error issues => refuse issues

/-- The same value seen from one step further out. -/
def inside (place : Place) (x : Checked α) : Checked α :=
  match x.outcome with
  | .ok a => accept a
  | .error issues => refuse (issues.map (.inside place))

/-- All of a list, with the issues of every item. -/
def all : List (Checked α) → Checked (List α)
  | [] => accept []
  | x :: rest => apply (x.map .cons) (all rest)

/-- The value of a record of some kind, or a fault that holds the
issues. -/
def orFault (kind : RecordKind) (x : Checked α) : Except Fault α :=
  match x.outcome with
  | .ok a => .ok a
  | .error issues => .error (.invalid kind issues)

/-- Both issues are kept. -/
theorem apply_refuse_refuse (these those : List Issue) :
    apply (refuse these : Checked (α → β)) (refuse those) = refuse (these ++ those) := rfl

end Checked

end KnowledgeGraph
