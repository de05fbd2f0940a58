import Rpcmple.Go.Framing
import Rpcmple.Go.RpcClient

namespace Rpcmple.Go

open Data MessageManager

variable {writeOk : List Bytes → Bytes → Bool}

private theorem accept_eq_some {σ : Type} {methods : MessageParser σ}
    {state following : σ × List Bytes} {piece : Bytes}
    (haccept : (sections methods writeOk).accept state piece = some following) :
    ∃ parser, methods.ParseMessage state.1 piece = (true, parser) ∧
      following.1 = (methods.SendMessage parser).2.2 := by
  simp only [sections] at haccept
  rcases hparse : methods.ParseMessage state.1 piece with ⟨success, parser⟩
  cases success with
  | false => simp [hparse] at haccept
  | true =>
      refine ⟨parser, rfl, ?_⟩
      simp only [hparse, Bool.not_true, Bool.false_eq_true, if_false, respond] at haccept
      split at haccept
      · cases haccept
      · split at haccept
        · split at haccept
          · cases haccept
          · split at haccept
            · cases haccept
            · cases haccept
              rfl
        · cases haccept
          rfl

theorem DataSubscriber.serves :
    Serves DataSubscriber.methods writeOk DataSubscriber.Framed where
  progresses := by
    intro state piece following hframed haccept
    obtain ⟨parser, hparse, hfollowing⟩ := accept_eq_some haccept
    have hnext : following.1 = parser := hfollowing
    change DataSubscriber.Framed following.1 ∧ _
    rw [sections_len, sections_len, hnext]
    rcases ParseMessage_framed hparse with ⟨hheader, hbody, hlen⟩ | ⟨-, hheader, hlen⟩
    · refine ⟨Or.inr ⟨hbody, hlen⟩, fun hzero => ?_⟩
      rcases hframed with ⟨-, hfour⟩ | ⟨hone, -⟩
      · simp [DataSubscriber.methods, hfour] at hzero
      · rw [hheader] at hone
        cases hone
    · refine ⟨Or.inl ⟨hheader, hlen⟩, fun _ => ?_⟩
      simp [DataSubscriber.methods, hlen]
  idles := fun _ _ _ => rfl

theorem RpcClient.serves (others : Nat → RpcClient.Shared) :
    Serves (RpcClient.methods others) writeOk fun state => state.1.Framed where
  progresses := by
    intro state piece following _ haccept
    obtain ⟨parser, hparse, hfollowing⟩ := accept_eq_some haccept
    rcases hclient : (meet others state.1).ParseMessage piece with ⟨success, rc⟩
    simp only [RpcClient.methods, hclient, Prod.mk.injEq] at hparse
    obtain ⟨rfl, rfl⟩ := hparse
    have hnext : rc.Framed := ParseMessage_framed hclient
    have hframed : following.1.1.Framed := by
      rw [hfollowing]
      exact hnext
    exact ⟨hframed, fun _ => hframed.positive⟩
  idles := by
    intro parser hframed hzero
    exact absurd hzero hframed.positive.ne'

/-- `dataFlow` delivers the sections of every stream, whatever the writes do and
whatever other goroutines put into the client, exactly when no chunk begins
inside a section and runs past its end, or ends where an empty body is due. -/
theorem dataFlow_delivers_iff (writeOk : List Bytes → Bytes → Bool) {chunks : List Bytes}
    (hchunks : ∀ chunk ∈ chunks, chunk ≠ []) :
    (∀ signature callback, ∃ pieces,
      (sections DataSubscriber.methods writeOk).Cut
          (DataSubscriber.NewDataSubscriber signature callback, []) chunks.flatten pieces ∧
        (Delivers DataSubscriber.methods writeOk
            (NewMessageManager DataSubscriber.methods
              (DataSubscriber.NewDataSubscriber signature callback) chunks) pieces ↔
          ¬ Misaligned 0 chunks pieces)) ∧
    ∀ remoteProcedures others, ∃ pieces,
      (sections (RpcClient.methods others) writeOk).Cut
          ((RpcClient.NewRPCClient remoteProcedures, 0), []) chunks.flatten pieces ∧
        (Delivers (RpcClient.methods others) writeOk
            (NewMessageManager (RpcClient.methods others)
              (RpcClient.NewRPCClient remoteProcedures, 0) chunks) pieces ↔
          ¬ Misaligned 0 chunks pieces) := by
  have hfour : 0 < (4 : UInt32).toNat := by decide
  constructor
  · intro signature callback
    have hframed := DataSubscriber.framed_new signature callback
    obtain ⟨pieces, hcut⟩ := @Cutter.Progresses.exists_cut _ _
      (DataSubscriber.NewDataSubscriber signature callback, []) _
      DataSubscriber.serves.progresses hframed chunks.flatten
    exact ⟨pieces, hcut,
      delivers_new_iff DataSubscriber.serves hframed hfour hchunks hcut⟩
  · intro remoteProcedures others
    have hframed := RpcClient.framed_new remoteProcedures
    obtain ⟨pieces, hcut⟩ := @Cutter.Progresses.exists_cut _ _
      ((RpcClient.NewRPCClient remoteProcedures, 0), []) _
      (RpcClient.serves others).progresses hframed chunks.flatten
    exact ⟨pieces, hcut,
      @delivers_new_iff _ _ _ _ (RpcClient.serves others)
        (RpcClient.NewRPCClient remoteProcedures, 0) hframed hfour _ _ hchunks hcut⟩

theorem dataFlow_delivers_iff_whole_frame :
    (∀ signature callback, ∃ pieces,
      (sections DataSubscriber.methods fun _ _ => true).Cut
          (DataSubscriber.NewDataSubscriber signature callback, [])
          [[1, 0, 0, 1, 7]].flatten pieces ∧
        (Delivers DataSubscriber.methods (fun _ _ => true)
            (NewMessageManager DataSubscriber.methods
              (DataSubscriber.NewDataSubscriber signature callback) [[1, 0, 0, 1, 7]])
            pieces ↔
          ¬ Misaligned 0 [[1, 0, 0, 1, 7]] pieces)) ∧
    ∀ remoteProcedures others, ∃ pieces,
      (sections (RpcClient.methods others) fun _ _ => true).Cut
          ((RpcClient.NewRPCClient remoteProcedures, 0), [])
          [[1, 0, 0, 1, 7]].flatten pieces ∧
        (Delivers (RpcClient.methods others) (fun _ _ => true)
            (NewMessageManager (RpcClient.methods others)
              (RpcClient.NewRPCClient remoteProcedures, 0) [[1, 0, 0, 1, 7]]) pieces ↔
          ¬ Misaligned 0 [[1, 0, 0, 1, 7]] pieces) :=
  dataFlow_delivers_iff (fun _ _ => true) (by decide)

/-- A header split after three bytes: the next chunk is taken as if none of it had
been read, and nothing is parsed any more. -/
theorem dataFlow_loses_split_header :
    (sections DataSubscriber.methods fun _ _ => true).Cut
        (DataSubscriber.NewDataSubscriber [DataType.u.char] true, [])
        [[8, 0, 0], [1, 7, 0, 0, 0, 0, 0, 0, 0]].flatten
        [[8, 0, 0, 1], [7, 0, 0, 0, 0, 0, 0, 0]] ∧
      ¬ Delivers DataSubscriber.methods (fun _ _ => true)
        (NewMessageManager DataSubscriber.methods
          (DataSubscriber.NewDataSubscriber [DataType.u.char] true)
          [[8, 0, 0], [1, 7, 0, 0, 0, 0, 0, 0, 0]])
        [[8, 0, 0, 1], [7, 0, 0, 0, 0, 0, 0, 0]] := by
  refine ⟨?_, ?_⟩
  · change Cutter.Cut _ _ ([8, 0, 0, 1] ++ ([7, 0, 0, 0, 0, 0, 0, 0] ++ [])) _
    exact .next rfl rfl (.next rfl rfl (.short (by decide)))
  · rintro ⟨-, halways⟩
    exact absurd (halways 5) (by decide)

end Rpcmple.Go
