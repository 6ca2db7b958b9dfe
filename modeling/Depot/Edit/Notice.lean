import Depot.Text.Character

/-!
Contract: what the user is told about an edit.

Every edit tells the user exactly one thing: that there was nothing to do, that
it may not be done, that it was done, or that it failed.

Owns: notices, their texts and their severities.
Does not own: when each is given (`Depot.Edit.Basic`).
-/

namespace Depot

/-- What the rows of an edit are called. -/
inductive Subject where
  | lines
  | shipments
  | requisitions
deriving DecidableEq, Repr

/-- The noun for a number of rows. -/
def Subject.noun (subject : Subject) (count : Nat) : String :=
  match subject with
  | .lines => if count = 1 then "line" else "lines"
  | .shipments => if count = 1 then "shipment" else "shipments"
  | .requisitions => if count = 1 then "requisition" else "requisitions"

/-- One message about an edit. -/
inductive Notice where
  | selectRowsFirst
  | disabled
  | cannotDelete (subject : Subject) (reason : String)
  | deleted (subject : Subject) (count : Nat)
  | saved (subject : Subject) (count : Nat)
  | mutationFailed
deriving DecidableEq, Repr

def Subject.counted (subject : Subject) (count : Nat) : String :=
  String.ofList (Text.natText count) ++ " " ++ subject.noun count

def Notice.text : Notice → String
  | .selectRowsFirst => "Select rows first"
  | .disabled => "This record can no longer be edited"
  | .cannotDelete subject reason =>
      "Cannot delete the selected " ++ subject.noun 2 ++ ": " ++ reason
  | .deleted subject count => "Deleted " ++ subject.counted count
  | .saved subject count => "Saved " ++ subject.counted count
  | .mutationFailed => "Something went wrong; changes were not saved"

/-- How a notice is shown. -/
inductive Severity where
  | info
  | success
  | error
deriving DecidableEq, Repr

namespace Severity

def all : List Severity := [.info, .success, .error]

def word : Severity → String
  | .info => "info"
  | .success => "success"
  | .error => "error"

def ofWord? (word : String) : Option Severity :=
  all.find? (·.word = word)

end Severity

/-- A notice as it is shown. -/
structure Notification where
  severity : Severity
  notice : Notice
deriving DecidableEq, Repr

end Depot
