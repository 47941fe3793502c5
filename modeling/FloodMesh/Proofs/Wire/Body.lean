import FloodMesh.Proofs.Wire.Peer
import FloodMesh.Proofs.Wire.Request
import FloodMesh.Proofs.Wire.Response

/-!
# FloodMesh.Proofs.Wire.Body

What replies say to their receiver: the endpoints that a body is read as, and the members of the
value that it is read as. How the sender makes the body does not show.
-/

namespace FloodMesh
namespace Response

/-- A reply lists endpoints: these are what its body is read as. -/
def Lists (reply : Response) (es : List Endpoint) : Prop :=
  ∃ body, reply = .body body ∧ PeerRecord.parseList body = .ok (es.map Endpoint.unzoned)

/-- A reply tells a value under a name: its body, as it is received, is an object with that
member. -/
def Tells (reply : Response) (name : String) (value : Json) : Prop :=
  ∃ body v, reply = .body body ∧ parseBody (body ++ delimiter) = .ok v ∧
    v.member? name = some value

theorem Lists.unique {reply : Response} {es es' : List Endpoint} (h : reply.Lists es)
    (h' : reply.Lists es') : es.map Endpoint.unzoned = es'.map Endpoint.unzoned := by
  obtain ⟨body, rfl, hread⟩ := h
  obtain ⟨_, ⟨⟩, hread'⟩ := h'
  exact Except.ok.inj (hread.symm.trans hread')

/-- A value that is read back as it was written tells its members. -/
theorem tells_ofJson {v value : Json} {name : String} (hfaithful : Json.Faithful Json.depthLimit v)
    (hmember : v.member? name = some value) : (ofJson v).Tells name value := by
  refine ⟨v.print, v, rfl, ?_, hmember⟩
  rw [parseBody, trimBody_append, Json.parse?_print_bare, hfaithful.reread_eq]

end Response
end FloodMesh
