/-!
# Storage errors

What can go wrong with the database, and what is said about it. Apart from errors there is one way
to stop altogether: a time beyond the calendar.
-/

namespace Courier

inductive StorageError
  | database (cause : String)
  | notFound
  | serialization (cause : String)
  | corrupted (id : Int) (reason : String)
  | invalidArgument (text : String)
  deriving DecidableEq, Repr

def StorageError.message : StorageError → String
  | database cause => "Database error: " ++ cause
  | notFound => "Record not found"
  | serialization cause => "Payload serialization error: " ++ cause
  | corrupted id reason => "Corrupted record " ++ toString id ++ ": " ++ reason
  | invalidArgument text => "Invalid argument: " ++ text

/-- Why an operation has no result: an error that it reports, or a number that leaves its range, such
as a time outside the calendar, which nothing recovers from. -/
inductive Stop (ε : Type)
  | error (e : ε)
  | crash
  deriving DecidableEq, Repr

end Courier
