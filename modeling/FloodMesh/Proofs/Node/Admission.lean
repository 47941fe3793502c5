import FloodMesh.Proofs.Node

/-!
# FloodMesh.Proofs.Node.Admission

A node measures a message of its own before anything happens to it. The relay measures again, after
it has remembered the id, and what it measures has other hops and another port. Both lengths are the
same, so a message that does not fit leaves no trace, and one that fits goes out.
-/

namespace FloodMesh

/-- What goes on is as long as what came, below the most hops that one digit expresses. -/
theorem Relay.length_stamp (r : Relay) {e : Envelope} (h : e.hops < maxHopLimit) :
    (r.stamp e).encode.length = e.encode.length :=
  Envelope.length_encode (Nat.le_of_lt h) h r.listenPort

/-- An envelope below its limit that fits as it goes on is a duplicate or is forwarded. -/
theorem Relay.Verdict.of_fits {r r' : Relay} {e : Envelope} {source : Option IpAddress}
    {sent : List Datagram} {outcome : FloodOutcome} (h : r.Verdict e source r' sent outcome)
    (hhops : e.hops < r.hopLimit) (hsize : (r.stamp e).encode.length ≤ maxMessageSize) :
    (r.knows e.id = true ∧ r' = r ∧ sent = [] ∧ outcome = .duplicate) ∨
      (r.knows e.id = false ∧ r' = r.remember e.id ∧ sent = r.copies e source ∧
        ∃ routers clients, outcome = .forwarded routers clients) := by
  cases h with
  | hopLimitReached hlimit => omega
  | duplicate _ hknows => exact .inl ⟨hknows, rfl, rfl, rfl⟩
  | tooLarge _ _ hlarge => omega
  | forwarded _ hknows _ routers clients => exact .inr ⟨hknows, rfl, rfl, routers, clients, rfl⟩

namespace Node

variable {n : Node}

/-- A running node with a hop limit, as settings that pass their check give it (`Lived.fit`),
refuses a message whose encoding is too long and is as it was, or takes it. What it takes goes out
to all targets in reach unless the id is in memory, and is never found too long or out of hops then:
what goes out is as long as what was measured. -/
theorem flood_all_or_nothing (hstage : n.stage = .running) (hlimit : 1 ≤ n.router.relay.hopLimit)
    (nanoseconds : Nat) (payload : Fields) :
    let r := n.router.relay
    let e := Envelope.originate nanoseconds payload
    let size := e.encode.length
    (r.stamp e).encode.length = size ∧
    ((maxMessageSize < size ∧
        n.flood nanoseconds payload =
          (n, .error (.protocol (.messageTooLarge size maxMessageSize)))) ∨
      (size ≤ maxMessageSize ∧
        ∃ n' outcome, n.flood nanoseconds payload = (n', .ok { id := e.id, outcome }) ∧
          (r.knows e.id = true → n' = n ∧ outcome = .duplicate) ∧
          (r.knows e.id = false →
            n'.router.relay = r.remember e.id ∧
            n'.router.network.queue = n.router.network.queue ++ r.copies e none ∧
            ∃ routers clients, outcome = .forwarded routers clients))) := by
  intro r e size
  have hlength : (r.stamp e).encode.length = size := r.length_stamp (Nat.zero_lt_succ 8)
  refine ⟨hlength, ?_⟩
  by_cases hlarge : maxMessageSize < size
  · exact .inl ⟨hlarge, flood_large hstage hlarge⟩
  · have hfits : size ≤ maxMessageSize := Nat.le_of_not_lt hlarge
    obtain ⟨relay, sent, outcome, hflood, hverdict⟩ := flood_eq hstage hfits
    refine .inr ⟨hfits, _, outcome, hflood, ?_⟩
    have hcases := hverdict.of_fits hlimit (hlength.trans_le hfits)
    rcases hcases with ⟨hknown, rfl, rfl, rfl⟩ | ⟨hunknown, rfl, rfl, hforwarded⟩
    · refine ⟨fun _ => ⟨?_, rfl⟩, fun hunknown => ?_⟩
      · simp only [List.append_nil]
      · rw [hknown] at hunknown
        cases hunknown
    · refine ⟨fun hknown => ?_, fun _ => ⟨rfl, rfl, hforwarded⟩⟩
      rw [hunknown] at hknown
      cases hknown

/-- A payload whose one field takes the place of the id. -/
def masked (k : Nat) : Fields := [("id", .text (String.ofList (List.replicate k 'x')))]

/-- The longest text that fits, and one more. -/
theorem flood_all_or_nothing_masked :
    lookout.stage = .running ∧ 1 ≤ lookout.router.relay.hopLimit ∧
      (∃ n' receipt routers clients, lookout.flood 7 (masked 450) = (n', .ok receipt) ∧
        receipt.outcome = .forwarded routers clients) ∧
      lookout.flood 7 (masked 451) =
        (lookout, .error (.protocol (.messageTooLarge 513 maxMessageSize))) := by
  have hstage : lookout.stage = .running := rfl
  have hlimit := lived_lookout.fit.starts
  have hfits : (Envelope.originate 7 (masked 450)).encode.length = 512 := by
    refine (congrArg List.length (Envelope.encode_renamed 0 0 _ _)).trans ?_
    decide +kernel
  have hlarge : (Envelope.originate 7 (masked 451)).encode.length = 513 := by
    refine (congrArg List.length (Envelope.encode_renamed 0 0 _ _)).trans ?_
    decide +kernel
  refine ⟨hstage, hlimit, ?_, ?_⟩
  · obtain ⟨_, ⟨hsize, _⟩ | ⟨_, n', outcome, hflood, _, hnew⟩⟩ :=
      flood_all_or_nothing hstage hlimit 7 (masked 450)
    · rw [hfits] at hsize
      exact absurd hsize (Nat.lt_irrefl _)
    · obtain ⟨_, _, routers, clients, hforwarded⟩ := hnew rfl
      exact ⟨n', _, routers, clients, hflood, hforwarded⟩
  · obtain ⟨_, ⟨_, hflood⟩ | ⟨hsize, _⟩⟩ := flood_all_or_nothing hstage hlimit 7 (masked 451)
    · rw [hlarge] at hflood
      exact hflood
    · rw [hlarge] at hsize
      exact absurd hsize (by decide)

end Node
end FloodMesh
