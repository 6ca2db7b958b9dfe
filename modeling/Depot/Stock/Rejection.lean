/-!
Contract: why a request was turned down.

A rejection has a code for programs and a message for people.

Owns: the codes, their words and their titles.
Does not own: the messages, which the rules of `Depot.Service` write.
-/

namespace Depot

/-- The classes of rejections. -/
inductive RejectionCode where
  | notFound
  | validation
  | forbidden
  | internal
deriving DecidableEq, Repr

namespace RejectionCode

def all : List RejectionCode := [.notFound, .validation, .forbidden, .internal]

def word : RejectionCode → String
  | .notFound => "not_found"
  | .validation => "validation"
  | .forbidden => "forbidden"
  | .internal => "internal"

def title : RejectionCode → String
  | .notFound => "NotFound"
  | .validation => "Validation"
  | .forbidden => "Forbidden"
  | .internal => "Internal"

def ofWord? (word : String) : Option RejectionCode :=
  all.find? (·.word = word)

end RejectionCode

structure Rejection where
  code : RejectionCode
  message : String
deriving DecidableEq, Repr

/-- Code and message on one line. -/
def Rejection.text (rejection : Rejection) : String :=
  rejection.code.title ++ ": " ++ rejection.message

end Depot
