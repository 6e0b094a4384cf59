import Settlement.Document.Basic
/-!
Calls of the service: what its endpoints are asked, with the values that the path and the body of a
request give them.
-/
namespace Settlement.Service

/-- What to open a session on. -/
structure Opening where
  config : Option (List (Text × Document))
  preset : Option Text
  name : Option Text

inductive Call where
  | create (opening : Opening)
  | list
  | get (id : Text)
  | delete (id : Text)
  | step (id : Text) (count : Int)
  /-- To run for some ticks, or for all that are left. -/
  | run (id : Text) (ticks : Option Int)
  | sites (id : Text)
  | site (id place : Text)
  | history (id place : Text)
  | csv (id place : Text)
  | catalog (id : Text)
  | health

end Settlement.Service
