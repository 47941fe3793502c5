/-!
# FloodMesh.SystemFault

Why the operating system refuses something: its number for the cause, and the sentence that says
it.
-/

namespace FloodMesh

inductive SystemFault
  | noSuchFile
  | isDirectory
  | addressInUse
  | networkUnreachable
  | connectionRefused
  deriving DecidableEq, Repr

namespace SystemFault

/-- The number of the cause. -/
def code : SystemFault → Nat
  | noSuchFile => 2
  | isDirectory => 21
  | addressInUse => 98
  | networkUnreachable => 101
  | connectionRefused => 111

/-- The sentence, without the number. -/
def text : SystemFault → String
  | noSuchFile => "No such file or directory"
  | isDirectory => "Is a directory"
  | addressInUse => "Address already in use"
  | networkUnreachable => "Network is unreachable"
  | connectionRefused => "Connection refused"

/-- The sentence with the number, as failures quote it. -/
def reason (f : SystemFault) : String :=
  f.text ++ " (os error " ++ Nat.repr f.code ++ ")"

end SystemFault
end FloodMesh
