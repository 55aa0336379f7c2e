import Lightsd.Lifx.StaleBytes

/-! # The effect of a datagram and the bytes received

Two runs on one datagram, over different contents of the receive buffer. They end in the
same state exactly when the datagram is covered: it is dropped before any handler sees it,
or its bytes suffice for the handler. A datagram as long as the structure of its type is
always covered, but nothing in the checks makes it that long.
-/
namespace Lightsd.Lifx

theorem Gateway.suffices_congr {gw gw' : Gateway} (hids : gw'.tagIds = gw.tagIds)
    (htags : gw'.tags = gw.tags) (payload : List UInt8) (handler : Handler) :
    gw'.Suffices payload handler ↔ gw.Suffices payload handler := by
  cases handler <;> simp only [Suffices,hids,htags]

namespace Daemon

variable {d : Daemon} {now : Time} {gw : Option GatewayRef} {dg : Datagram} {info : PacketInfo}

/-- A peer that is no gateway can at most become one, whatever the payload. -/
theorem handleReceive_unknown (hacc : dg.Accepted info) (h : d.receiver gw dg.peer = none) (env : Env)
    (stale stale' : Buffer) : d.handleReceive now gw (dg.withStale stale) env =
      d.handleReceive now gw (dg.withStale stale') env := by
  cases gw with
  | some g => cases h
  | none =>
    have hget : d.gatewayGet dg.peer = none := h
    have hpeer : ∀ stale, (dg.withStale stale).peer = dg.peer := fun _ => rfl
    simp only [handleReceive,dg.receive_withStale hacc,handlePacket,hpeer,hget]
    split
    · rename_i hopen
      have hpan := handle_panGateway (hopen.1 ▸ hacc.known)
      simp only [dispatch,hpan,handle]
    · rfl

/-- A packet for a gateway is handled in a state that does not depend on its payload. -/
theorem handleReceive_known (now : Time) (hacc : dg.Accepted info) {g : GatewayRef}
    (h : d.receiver gw dg.peer = some g) :
    ∃ d₁ : Daemon, (d₁.gw g).tagIds = (d.gw g).tagIds ∧ (d₁.gw g).tags = (d.gw g).tags ∧
      ∀ env stale, d.handleReceive now gw (dg.withStale stale) env =
        (d₁.handle now g info.handle dg.header
          (fill (dg.bytes.drop headerSize) (stale.drop headerSize)) env,true) := by
  have hdispatch : ∀ d₀ : Daemon, d₀.gw = d.gw → ∃ d₁ : Daemon, (d₁.gw g).tagIds = (d.gw g).tagIds ∧
      (d₁.gw g).tags = (d.gw g).tags ∧ ∀ env pkt,
        d₀.dispatch now g info dg.header pkt env = d₁.handle now g info.handle dg.header pkt env := by
    intro d₀ hgw
    refine ⟨_,?_,?_,fun env pkt => rfl⟩
    · split <;> simp [modifyGw,hgw]
    · split <;> simp [modifyGw,hgw]
  have hbuffer : ∀ stale, (dg.withStale stale).buffer.drop headerSize =
      fill (dg.bytes.drop headerSize) (stale.drop headerSize) := fun stale => drop_fill dg.bytes stale headerSize
  cases gw with
  | some g' =>
    cases h
    have hgw : (d.check ((d.gw g).peer = dg.peer) (.peerMismatch g)).gw = d.gw := by
      cases decide ((d.gw g).peer = dg.peer) <;> rfl
    obtain ⟨d₁,hids,htags,heq⟩ := hdispatch _ hgw
    refine ⟨d₁,hids,htags,fun env stale => ?_⟩
    simp only [handleReceive,dg.receive_withStale hacc,handlePacket,hbuffer]
    rw [← heq]
    rfl
  | none =>
    have hget : d.gatewayGet dg.peer = some g := h
    obtain ⟨d₁,hids,htags,heq⟩ := hdispatch d rfl
    refine ⟨d₁,hids,htags,fun env stale => ?_⟩
    simp only [handleReceive,dg.receive_withStale hacc,handlePacket,hbuffer]
    rw [← heq]
    simp only [Datagram.withStale,hget]

/-- A datagram has the same effect over all contents of the receive buffer exactly when it
is covered. -/
theorem effect_fixed_iff_covered (d : Daemon) (now : Time) (gw : Option GatewayRef) (dg : Datagram) :
    (∀ env stale stale', d.handleReceive now gw (dg.withStale stale) env =
      d.handleReceive now gw (dg.withStale stale') env) ↔ d.Covered gw dg := by
  by_cases hacc : ∃ info, dg.Accepted info
  · obtain ⟨info,hacc⟩ := hacc
    have hcovered : d.Covered gw dg ↔ ∀ g, d.receiver gw dg.peer = some g →
        (d.gw g).Suffices (dg.bytes.drop headerSize) info.handle := by
      constructor
      · exact fun h g hg => h info g hacc hg
      · intro h info' g hacc' hg
        cases hacc.known.symm.trans hacc'.known
        exact h g hg
    rw [hcovered]
    cases hreceiver : d.receiver gw dg.peer with
    | none => exact iff_of_true (handleReceive_unknown hacc hreceiver) (by simp)
    | some g =>
      obtain ⟨d₁,hids,htags,heq⟩ := handleReceive_known now hacc hreceiver
      have hsettled : (∀ env stale stale', d.handleReceive now gw (dg.withStale stale) env =
          d.handleReceive now gw (dg.withStale stale') env) ↔
          d₁.Settled now g info.handle dg.header (dg.bytes.drop headerSize) := by
        simp only [heq,Prod.mk.injEq,and_true]
        constructor
        · intro h env rest rest'
          have hdrop : ∀ b : Buffer, Buffer.drop (fun i => b (i - headerSize)) headerSize = b := by
            intro b
            funext i
            simp [Buffer.drop]
          have hsame := h env (fun i => rest (i - headerSize)) (fun i => rest' (i - headerSize))
          simpa only [hdrop] using hsame
        · exact fun h env stale stale' => h env _ _
      rw [hsettled,settled_iff hacc.known,Gateway.suffices_congr hids htags]
      simp
  · have hnone : ∀ info, ¬ dg.Accepted info := fun info h => hacc ⟨info,h⟩
    have hcovered : d.Covered gw dg := fun info _ h => absurd h (hnone info)
    rcases dg.receive_discarded hnone with hr | hr
    · simp [handleReceive,hr,hcovered]
    · simp [handleReceive,hr,hcovered]

/-- A bulb is given the tags that are left in the buffer, by a datagram without a payload. -/
theorem old_bytes_become_tags :
    let d := ({} : Daemon).gatewayOpen [10,0,0,1] #v[1,2,3,4,5,6] 0
    let dg := Datagram.sent [10,0,0,1] (.device #v[9,9,9,9,9,9]) .tags []
    (((d.handleReceive 1 none (dg.withStale (fun _ => 0)) {}).1).bulb 0).state.tags = 0 ∧
    (((d.handleReceive 1 none (dg.withStale (fun _ => 1)) {}).1).bulb 0).state.tags =
      0x0101010101010101 := by
  decide +kernel

end Daemon
end Lightsd.Lifx
