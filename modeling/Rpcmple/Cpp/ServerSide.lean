import Rpcmple.Cpp.Delivery
import Rpcmple.Cpp.Replies
import Rpcmple.Cpp.Streams

namespace Rpcmple.Cpp

open Data MessageManager
open RpcServer (takesAll)

variable {ω : Type} {table : List (Procedure ω)} {far : Platform}

namespace Issue

variable {issue : Issue ω}

structure Sound (far : Platform) (table : List (Procedure ω)) (issue : Issue ω) : Prop where
  number : issue.invocation.rpId.toNat < 256
  registered : table[issue.invocation.rpId.toNat]? = some issue.proc
  takes : issue.proc.Takes issue.invocation.arguments
  small : DataSignature.Small issue.proc.args issue.invocation.arguments
  honest : issue.proc.Honest
  named : Converts far issue.proc.procedureName

theorem Sound.fits (hsound : Sound far table issue) : issue.request.Fits :=
  ⟨hsound.number,
    (hsound.small.values hsound.honest.args hsound.takes.1 hsound.takes.2).2.2.2⟩

theorem Sound.reply_fits (hsound : Sound far table issue) (world : ω) :
    (issue.reply world).Fits := by
  obtain ⟨-, hlength, hmatches, hsmall⟩ :=
    hsound.honest.returns world issue.invocation.arguments hsound.takes hsound.small
  exact ⟨Nat.one_lt_ofNat, (hsmall.values hsound.honest.rets hlength hmatches).2.2.2⟩

theorem Sound.requests (hsound : Sound far table issue) :
    RpcServer.Requests far (table.map Procedure.registered) issue.request issue.proc.registered
      issue.invocation.arguments := by
  refine ⟨?_, _, DataSignature.fromBinary_body hsound.small hsound.honest.args hsound.takes.1
    hsound.takes.2 _⟩
  rw [List.getElem?_map]
  exact congrArg (Option.map Procedure.registered) hsound.registered

theorem Sound.encodes (hsound : Sound far table issue) (world : ω) :
    RpcServer.Encodes far issue.proc.registered.rets
      (issue.proc.registered.called world issue.invocation.arguments)
      (DataSignature.plain (issue.proc.called world issue.invocation.arguments).2.1) := by
  obtain ⟨hsuccess, hlength, hmatches, hsmall⟩ :=
    hsound.honest.returns world issue.invocation.arguments hsound.takes hsound.small
  exact ⟨hsuccess, hlength, hsmall.represents hsound.honest.rets hlength hmatches,
    (hsmall.values hsound.honest.rets hlength hmatches).2.2.1⟩

def ran (issue : Issue ω) (server : RpcServer ω) : RpcServer ω :=
  (server.asked issue.request).afterCall issue.request.body issue.invocation.arguments
    (issue.next server.world) (issue.reply server.world).body

theorem calls_ran (issue : Issue ω) (server : RpcServer ω) :
    (issue.ran server).calls = server.calls ++ [issue.run] := by
  have hnumber : (server.asked issue.request).procedureID.toNat = issue.invocation.rpId.toNat :=
    UInt32.toNat_ofNat_of_lt' issue.invocation.rpId.toNat_lt
  rw [ran, RpcServer.calls_afterCall, hnumber]
  rfl

theorem Sound.called (hsound : Sound far table issue) {server : RpcServer ω}
    (hprocedures : server.localProcedures = table.map Procedure.registered) :
    (server.asked issue.request).callThenHeader far issue.request.body =
      .returns (true, (issue.ran server).expectHeader) := by
  have hrequests := @Sound.requests _ _ far _ hsound
  rw [← hprocedures] at hrequests
  have hshort : (issue.reply server.world).body.length < 2 ^ 31 :=
    (hsound.reply_fits server.world).2.trans (by decide)
  have hinvoke : (server.asked issue.request).invoke far issue.proc.registered
      issue.request.body issue.invocation.arguments = _ :=
    RpcServer.invoke_of_encodes (hsound.encodes server.world) hshort
  rw [RpcServer.callThenHeader, RpcServer.asked_requests hsound.fits hrequests hsound.named,
    hinvoke]
  rfl

theorem Sound.replies (hsound : Sound far table issue) (server : RpcServer ω) :
    RpcServer.reply far (issue.ran server).expectHeader =
      (true, (issue.reply server.world).bytes) := by
  have hshort := (hsound.reply_fits server.world).2
  rw [ran, RpcServer.reply_afterCall, if_neg (by omega)]
  rfl

theorem replies_append (world : ω) (front : List (Issue ω)) (issue : Issue ω) :
    replies world (front ++ [issue]) =
      replies world front ++ [issue.reply (after world front)] := by
  induction front generalizing world with
  | nil => rfl
  | cons first front ih =>
      rw [List.cons_append, replies, ih, replies, List.cons_append]
      rfl

theorem after_append (world : ω) (front : List (Issue ω)) (issue : Issue ω) :
    after world (front ++ [issue]) = issue.next (after world front) := by
  rw [after, List.foldl_append]
  rfl

theorem length_replies (world : ω) (issues : List (Issue ω)) :
    (replies world issues).length = issues.length := by
  induction issues generalizing world with
  | nil => rfl
  | cons issue issues ih => rw [replies, List.length_cons, List.length_cons, ih]

end Issue

open Issue

/-- The server has run these invocations, one after the other. -/
structure Books (table : List (Procedure ω)) (world : ω) (done : List (Issue ω))
    (server : RpcServer ω) : Prop where
  procedures : server.localProcedures = table.map Procedure.registered
  world : server.world = after world done
  calls : server.calls = done.map run

theorem Books.ran {world : ω} {done : List (Issue ω)} {issue : Issue ω} {server : RpcServer ω}
    (hbooks : Books table world done server) :
    Books table world (done ++ [issue]) (issue.ran server) where
  procedures := hbooks.procedures
  world := by
    rw [after_append, ← hbooks.world]
    rfl
  calls := by
    rw [calls_ran, hbooks.calls, List.map_append]
    rfl

/-- Between two requests, behind the header of one that has a body, or with the reply to
one that was run. -/
inductive Served (table : List (Procedure ω)) (world : ω) (issued : List (Issue ω))
    (view : View (RpcServer ω)) : Prop where
  | waits {done : List (Issue ω)} {server : RpcServer ω} :
      done <+: issued → (view.stage = .opening ∧ done = [] ∨ view.stage = .reading) →
      view.len = 4 → view.parser = server.expectHeader → Books table world done server →
      view.written = (replies world done).map Frame.bytes →
      view.read = done.flatMap (·.request.bytes) → Served table world issued view
  | announced {done : List (Issue ω)} {issue : Issue ω} {server : RpcServer ω} :
      done ++ [issue] <+: issued → issue.request.body.length ≠ 0 →
      (view.stage = .reading ∧ view.len = issue.request.body.length ∨
        ∃ received, view.stage = .replying received) →
      view.parser = server.expectBody issue.request.high issue.request.body.length →
      Books table world done server → view.written = (replies world done).map Frame.bytes →
      view.read = done.flatMap (·.request.bytes) ++
        Frame.header issue.request.high issue.request.body.length →
      Served table world issued view
  | answers {done : List (Issue ω)} {issue : Issue ω} {server : RpcServer ω} {received : Nat} :
      done ++ [issue] <+: issued → view.stage = .replying received →
      received ≤ readBufferSize → view.parser = (issue.ran server).expectHeader →
      Books table world done server → view.written = (replies world done).map Frame.bytes →
      view.read = (done ++ [issue]).flatMap (·.request.bytes) → Served table world issued view

theorem served_start (far : Platform) (table : List (Procedure ω)) (world : ω) :
    Served table world [] (init (RpcServer.methods far)
      (RpcServer.new (table.map Procedure.registered) world) []).view :=
  @Served.waits _ _ _ _ _ [] (RpcServer.new (table.map Procedure.registered) world)
    List.prefix_rfl (.inl ⟨rfl, rfl⟩) rfl rfl ⟨rfl, rfl, rfl⟩ rfl rfl

variable {world : ω} {issued more : List (Issue ω)} {view next : View (RpcServer ω)}

theorem Served.grows (hserved : Served table world issued view) (hmore : issued <+: more)
    (pending : Bytes) : Served table world more { view with pending } := by
  cases hserved with
  | waits hfront hstage hlen hparser hbooks hwritten hread =>
      exact .waits (hfront.trans hmore) hstage hlen hparser hbooks hwritten hread
  | announced hfront hbody hstage hparser hbooks hwritten hread =>
      exact .announced (hfront.trans hmore) hbody hstage hparser hbooks hwritten hread
  | answers hfront hstage hreceived hparser hbooks hwritten hread =>
      exact .answers (hfront.trans hmore) hstage hreceived hparser hbooks hwritten hread

theorem Served.logs (hserved : Served table world issued view) :
    ∃ done, done <+: issued ∧ view.written = (replies world done).map Frame.bytes ∧
      done.map run <+: view.parser.calls ∧ view.parser.calls <+: issued.map run := by
  cases hserved with
  | @waits done server hfront _ _ hparser hbooks hwritten =>
      have hcalls : view.parser.calls = done.map run := by
        rw [hparser, ← hbooks.calls]
        rfl
      exact ⟨done, hfront, hwritten, by rw [hcalls], by rw [hcalls]; exact hfront.map _⟩
  | @announced done issue server hissue _ _ hparser hbooks hwritten =>
      have hfront := (List.prefix_append done [issue]).trans hissue
      have hcalls : view.parser.calls = done.map run := by
        rw [hparser, ← hbooks.calls]
        rfl
      exact ⟨done, hfront, hwritten, by rw [hcalls], by rw [hcalls]; exact hfront.map _⟩
  | @answers done issue server received hissue _ _ hparser hbooks hwritten =>
      have hfront := (List.prefix_append done [issue]).trans hissue
      have hcalls : view.parser.calls = (done ++ [issue]).map run := by
        rw [hparser, List.map_append, ← hbooks.calls]
        exact calls_ran issue server
      refine ⟨done, hfront, hwritten, ?_, by rw [hcalls]; exact hissue.map _⟩
      rw [hcalls, List.map_append]
      exact List.prefix_append _ _

theorem piece_of_prefix {piece rest front back : Bytes} (hfront : piece ++ rest <+: front ++ back)
    (hlength : piece.length = front.length) : piece = front := by
  obtain ⟨behind, hsame⟩ := hfront
  rw [List.append_assoc] at hsame
  exact List.append_inj_left hsame hlength

theorem header_of_stream {done : List (Issue ω)} {piece rest : Bytes}
    (hfront : done <+: issued)
    (hstream : done.flatMap (·.request.bytes) ++ (piece ++ rest) <+:
      issued.flatMap (·.request.bytes)) (hlength : piece.length = 4) :
    ∃ issue, done ++ [issue] <+: issued ∧
      piece = Frame.header issue.request.high issue.request.body.length := by
  obtain ⟨tail, rfl⟩ := hfront
  rw [List.flatMap_append, List.prefix_append_right_inj] at hstream
  cases tail with
  | nil =>
      have hnone := List.prefix_nil.mp hstream
      rw [List.append_eq_nil_iff] at hnone
      rw [hnone.1] at hlength
      cases hlength
  | cons issue tail =>
      refine ⟨issue, ⟨tail, by simp⟩, ?_⟩
      rw [List.flatMap_cons, Frame.bytes, List.append_assoc] at hstream
      exact piece_of_prefix hstream (by rw [hlength, Frame.length_header])

theorem body_of_stream {done : List (Issue ω)} {issue : Issue ω} {piece rest : Bytes}
    (hfront : done ++ [issue] <+: issued)
    (hstream : (done.flatMap (·.request.bytes) ++
        Frame.header issue.request.high issue.request.body.length) ++ (piece ++ rest) <+:
      issued.flatMap (·.request.bytes)) (hlength : piece.length = issue.request.body.length) :
    piece = issue.request.body := by
  obtain ⟨tail, rfl⟩ := hfront
  rw [List.flatMap_append, List.flatMap_append, List.flatMap_singleton, Frame.bytes,
    List.append_assoc, List.append_assoc, List.prefix_append_right_inj, List.append_assoc,
    List.prefix_append_right_inj] at hstream
  exact piece_of_prefix hstream hlength

theorem Served.parses {piece rest : Bytes}
    (hserved : Served table world issued view) (hsound : ∀ issue ∈ issued, issue.Sound far table)
    (hstage : view.stage = .reading) (hlength : piece.length = view.len)
    (hpending : view.pending = piece ++ rest)
    (hstream : view.read ++ view.pending <+: issued.flatMap (·.request.bytes)) :
    ∃ next, view.parser.parseMessage far piece = .returns (true, next) ∧
      Served table world issued
        { view with
          stage := .replying piece.length
          parser := next
          pending := rest
          parsed := view.parsed ++ [(view.parser, piece)] } := by
  have hread : ∀ parser : RpcServer ω, View.read
      { view with
        stage := .replying piece.length
        parser
        pending := rest
        parsed := view.parsed ++ [(view.parser, piece)] } = view.read ++ piece := by
    intro parser
    simp [View.read]
  cases hserved with
  | @waits done server hfront _ hlen hparser hbooks hwritten hdone =>
      rw [hlen] at hlength
      rw [hdone, hpending] at hstream
      obtain ⟨issue, hissue, rfl⟩ := header_of_stream hfront hstream hlength
      have hgood := hsound issue (hissue.subset (by simp))
      by_cases hbody : issue.request.body.length = 0
      · have hnone := List.length_eq_zero_iff.mp hbody
        have hrequest : issue.request = ⟨issue.request.high, []⟩ := by
          rw [← hnone]
        have hcalled := @Sound.called _ _ far _ hgood server hbooks.procedures
        refine ⟨(issue.ran server).expectHeader, ?_, .answers hissue rfl ?_ rfl hbooks hwritten ?_⟩
        · rw [hparser, hbody, (RpcServer.reads_empty server hgood.fits.1).1, ← hcalled, hnone,
            ← hrequest]
        · rw [hlength]
          decide
        · rw [hread, hdone, List.flatMap_append, List.flatMap_singleton, Frame.bytes, hnone,
            List.append_nil]
      · refine ⟨server.expectBody issue.request.high issue.request.body.length, ?_,
          .announced hissue hbody (.inr ⟨_, rfl⟩) rfl hbooks hwritten ?_⟩
        · rw [hparser]
          exact (RpcServer.reads_header server hgood.fits.1 hgood.fits.2 hbody).1
        · rw [hread, hdone]
  | @announced done issue server hissue hbody hplace hparser hbooks hwritten hdone =>
      rcases hplace with ⟨-, hlen⟩ | ⟨received, hreplying⟩
      · rw [hlen] at hlength
        rw [hdone, hpending] at hstream
        obtain rfl := body_of_stream hissue hstream hlength
        have hgood := hsound issue (hissue.subset (by simp))
        have hcalled := @Sound.called _ _ far _ hgood server hbooks.procedures
        refine ⟨(issue.ran server).expectHeader, ?_, .answers hissue rfl ?_ rfl hbooks hwritten ?_⟩
        · rw [hparser, (RpcServer.reads_body server hbody).1, hcalled]
        · exact hgood.fits.2.le.trans (by decide)
        · rw [hread, hdone, List.flatMap_append, List.flatMap_singleton, Frame.bytes,
            List.append_assoc]
      · rw [hstage] at hreplying
        cases hreplying
  | answers _ hreplying =>
      rw [hstage] at hreplying
      cases hreplying

theorem Served.responds {received : Nat} (hserved : Served table world issued view)
    (hsound : ∀ issue ∈ issued, issue.Sound far table) (hstage : view.stage = .replying received) :
    ∃ following, Position.respond (RpcServer.methods far) takesAll view.parser received
        view.written = some following ∧
      Served table world issued (view.resume following) := by
  cases hserved with
  | waits _ hplace =>
      rcases hplace with ⟨hopening, -⟩ | hreading
      · rw [hstage] at hopening
        cases hopening
      · rw [hstage] at hreading
        cases hreading
  | @announced done issue server hissue hbody _ hparser hbooks hwritten hdone =>
      have hgood := hsound issue (hissue.subset (by simp))
      refine ⟨⟨server.expectBody issue.request.high issue.request.body.length, view.written,
        issue.request.body.length⟩, ?_,
        .announced hissue hbody (.inl ⟨rfl, rfl⟩) rfl hbooks hwritten hdone⟩
      rw [hparser]
      exact (RpcServer.answers far).respond_body server _ hgood.fits.2 _ _
  | @answers done issue server taken hissue hplace htaken hparser hbooks hwritten hdone =>
      have hgood := hsound issue (hissue.subset (by simp))
      obtain rfl := Stage.replying.inj (hplace.symm.trans hstage)
      have hfull : ((issue.reply server.world).bytes).isEmpty = false := by
        rw [Frame.bytes, List.isEmpty_eq_false_iff, ← List.length_pos_iff, List.length_append,
          Frame.length_header]
        omega
      refine ⟨⟨(issue.ran server).expectHeader,
        view.written ++ [(issue.reply server.world).bytes], 4⟩, ?_,
        .waits hissue (.inr rfl) rfl rfl hbooks.ran ?_ hdone⟩
      · have hrespond := @Answers.respond_header _ _ _ _ takesAll _ _ (RpcServer.answers far)
          (issue.ran server).expectHeader taken htaken view.written
        rw [hgood.replies] at hrespond
        rw [hparser]
        refine hrespond.trans ?_
        simp [send, hfull, takesAll]
        rfl
      · simp only [View.resume]
        rw [hwritten, replies_append, List.map_append, hbooks.world]
        rfl

theorem Served.open (hserved : Served table world issued view) : view.stage ≠ .closed := by
  intro hclosed
  cases hserved with
  | waits _ hplace =>
      rcases hplace with ⟨hopening, -⟩ | hreading
      · cases hclosed.symm.trans hopening
      · cases hclosed.symm.trans hreading
  | announced _ _ hplace =>
      rcases hplace with ⟨hreading, -⟩ | ⟨received, hreplying⟩
      · cases hclosed.symm.trans hreading
      · cases hclosed.symm.trans hreplying
  | answers _ hreplying => cases hclosed.symm.trans hreplying

theorem Served.opens (hserved : Served table world issued view) (hstage : view.stage = .opening) :
    ∃ start, Position.opening (RpcServer.methods far) takesAll view.parser = some start ∧
      Served table world issued (view.resume start) := by
  cases hserved with
  | @waits done server hfront hplace hlen hparser hbooks hwritten hread =>
      rcases hplace with ⟨-, rfl⟩ | hreading
      · refine ⟨⟨server.expectHeader, [], 4⟩, ?_, .waits hfront (.inr rfl) rfl rfl hbooks rfl hread⟩
        rw [hparser]
        rfl
      · cases hstage.symm.trans hreading
  | announced _ _ hplace =>
      rcases hplace with ⟨hreading, -⟩ | ⟨received, hreplying⟩
      · cases hstage.symm.trans hreading
      · cases hstage.symm.trans hreplying
  | answers _ hreplying => cases hstage.symm.trans hreplying

theorem Served.advances (hserved : Served table world issued view)
    (hsound : ∀ issue ∈ issued, issue.Sound far table)
    (hstream : view.read ++ view.pending <+: issued.flatMap (·.request.bytes))
    (hadvance : View.Advance (RpcServer.methods far) takesAll view next)
    (hreads : view.stage = .reading → next.stage = .closed → next.parsed ≠ view.parsed) :
    Served table world issued next := by
  cases hadvance with
  | stays => exact hserved
  | opens hstage hopening =>
      obtain ⟨start, hstart, hnext⟩ := @Served.opens _ _ far _ _ _ hserved hstage
      cases Option.some.inj (hopening.symm.trans hstart)
      exact hnext
  | parses hstage hlength hpending hparse =>
      obtain ⟨following, hreturns, hnext⟩ :=
        @Served.parses _ _ far _ _ _ _ _ hserved hsound hstage hlength hpending hstream
      cases hparse.symm.trans hreturns
      exact hnext
  | rejects hstage hlength hpending hrejects =>
      obtain ⟨following, hreturns, -⟩ :=
        @Served.parses _ _ far _ _ _ _ _ hserved hsound hstage hlength hpending hstream
      exact absurd hreturns (hrejects following)
  | replies hstage hrespond =>
      obtain ⟨following, hfollowing, hnext⟩ :=
        @Served.responds _ _ far _ _ _ _ hserved hsound hstage
      cases Option.some.inj (hrespond.symm.trans hfollowing)
      exact hnext
  | fails hfails =>
      rcases hfails with ⟨hstage, hnone⟩ | ⟨received, hstage, hnone⟩
      · obtain ⟨start, hstart, -⟩ := @Served.opens _ _ far _ _ _ hserved hstage
        cases hnone.symm.trans hstart
      · obtain ⟨following, hfollowing, -⟩ :=
          @Served.responds _ _ far _ _ _ _ hserved hsound hstage
        cases hnone.symm.trans hfollowing
  | starves hstage _ hclosed hparsed => exact absurd hparsed (hreads hstage hclosed)

theorem Served.caught_up (hserved : Served table world issued view)
    (hstage : view.stage = .reading) (hshort : view.pending.length < view.len)
    (hstream : view.read ++ view.pending = issued.flatMap (·.request.bytes)) :
    view.written = (replies world issued).map Frame.bytes := by
  cases hserved with
  | @waits done server hfront _ hlen _ _ hwritten hread =>
      obtain ⟨tail, rfl⟩ := hfront
      rw [hread, List.flatMap_append, List.append_cancel_left_eq] at hstream
      cases tail with
      | nil => rw [List.append_nil, hwritten]
      | cons issue tail =>
          rw [hstream, hlen, List.flatMap_cons, List.length_append, Frame.length_bytes] at hshort
          omega
  | @announced done issue server hissue _ hplace _ _ _ hread =>
      rcases hplace with ⟨-, hlen⟩ | ⟨received, hreplying⟩
      · obtain ⟨tail, rfl⟩ := hissue
        rw [hread, List.flatMap_append, List.flatMap_append, List.flatMap_singleton, Frame.bytes,
          List.append_assoc, List.append_assoc, List.append_cancel_left_eq, List.append_assoc,
          List.append_cancel_left_eq] at hstream
        rw [hstream, hlen, List.length_append] at hshort
        omega
      · cases hstage.symm.trans hreplying
  | answers _ hreplying => cases hstage.symm.trans hreplying

theorem Served.serves {mm : MessageManager (RpcServer ω)}
    (hserved : Served table world issued mm.view)
    (hready : Ready (RpcServer.methods far) RpcServer.Framed mm)
    (hsound : ∀ issue ∈ issued, issue.Sound far table)
    (hstream : mm.view.read ++ mm.view.pending <+: issued.flatMap (·.request.bytes))
    (hgoes : ¬ mm.Starved) :
    Served table world issued (mm.dataFlow (RpcServer.methods far) takesAll).view ∧
      Ready (RpcServer.methods far) RpcServer.Framed
        (mm.dataFlow (RpcServer.methods far) takesAll) ∧
      (mm.dataFlow (RpcServer.methods far) takesAll).view.read ++
          (mm.dataFlow (RpcServer.methods far) takesAll).view.pending =
        mm.view.read ++ mm.view.pending := by
  obtain ⟨hnext, hadvance⟩ := @dataFlow_spec _ _ takesAll _ _ (RpcServer.sectional far) hready
  have hserves := hserved.advances hsound hstream hadvance fun hstage hclosed =>
    reads_on hready hgoes hstage hclosed
  exact ⟨hserves, hnext, hadvance.conserves hserves.open⟩

end Rpcmple.Cpp
