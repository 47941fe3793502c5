import FloodMesh.Discovery.Contact

/-!
# FloodMesh.Discovery.Keepalive

Staying registered at a directory: a registration at once, one more after every interval, and at the
end one message that takes it back. However late it wakes from an interval, it registers once and
waits for a whole interval again. A message that cannot be sent is passed over; the next one is sent
all the same.
-/

namespace FloodMesh

structure Keepalive where
  directory : Contact
  /-- The port to register. -/
  listenPort : UInt16
  /-- Milliseconds to wait after a registration, at least one. -/
  interval : Nat
  /-- When the next registration is due. -/
  due : Nat
  running : Bool := true

namespace Keepalive

/-- Register once more. -/
def register (k : Keepalive) (lookup : Lookup) (o : Outlet) (n : Network) : Network :=
  match k.directory.connect lookup o n k.listenPort with
  | .ok n => n
  | .error _ => n

/-- Register now, and again every interval from now on. -/
def start (directory : Contact) (listenPort : UInt16) (now interval : Nat) (lookup : Lookup)
    (o : Outlet) (n : Network) : Keepalive × Network :=
  let interval := max 1 interval
  let k : Keepalive := { directory, listenPort, interval, due := now + interval }
  (k, k.register lookup o n)

/-- Whether it is time to register. -/
def isDue (k : Keepalive) (now : Nat) : Bool := k.running && k.due ≤ now

/-- Register if it is time to, and wait for an interval from now on. -/
def advance (k : Keepalive) (lookup : Lookup) (now : Nat) (o : Outlet) (n : Network) :
    Keepalive × Network :=
  if k.isDue now then ({ k with due := now + k.interval }, k.register lookup o n) else (k, n)

/-- Take the registration back and send no more. -/
def finish (k : Keepalive) (lookup : Lookup) (o : Outlet) (n : Network) : Keepalive × Network :=
  let k := { k with running := false }
  match k.directory.disconnect lookup o n k.listenPort with
  | .ok n => (k, n)
  | .error _ => (k, n)

end Keepalive
end FloodMesh
