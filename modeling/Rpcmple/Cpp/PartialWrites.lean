import Rpcmple.Data.Bytes
import Rpcmple.Data.Exec
import Rpcmple.Data.Loop

namespace Rpcmple.Cpp

open Data

/-- What the operating system makes of the calls that offer it bytes, by the number of the
call: an error, or a count of at least one and at most what is offered. -/
structure Device where
  accepts : Nat → Nat → Option Nat
  accepts_le : ∀ call offered count, accepts call offered = some count →
    1 ≤ count ∧ count ≤ offered

/-- The variables of a loop, with the calls made and the bytes the system has accepted. -/
structure Attempt where
  calls : Nat
  total : Nat
  bytesLeft : Nat
  accepted : Bytes

namespace Attempt

def start (bytes : Bytes) : Attempt := ⟨0, 0, bytes.length % 2 ^ 32, []⟩

end Attempt

/-- One round of the loop around `send`, which takes its length as an `int`; `total` is
`totalBytesSent`, an `int` as well. -/
def sendRound (device : Device) (bytes : Bytes) (attempt : Attempt) :
    Attempt ⊕ Exec (Bool × Bytes) :=
  if attempt.total < bytes.length then
    let len := Int.bmod attempt.bytesLeft (2 ^ 32)
    match device.accepts attempt.calls len.toNat with
    | none => .inr (.returns (false, attempt.accepted))
    | some bytesSent =>
        if 2 ^ 31 ≤ attempt.total + bytesSent then .inr .undefined
        else .inl
          { calls := attempt.calls + 1
            total := attempt.total + bytesSent
            bytesLeft := (attempt.bytesLeft + 2 ^ 32 - bytesSent) % 2 ^ 32
            accepted := attempt.accepted ++ (bytes.drop attempt.total).take bytesSent }
  else .inr (.returns (true, attempt.accepted))

/-- One round of the loop around `WriteFile`; `total` is `tBytesWritten`, a `DWORD`. -/
def writeFileRound (device : Device) (bytes : Bytes) (attempt : Attempt) :
    Attempt ⊕ Exec (Bool × Bytes) :=
  if attempt.total < bytes.length then
    match device.accepts attempt.calls (bytes.length % 2 ^ 32) with
    | none => .inr (.returns (false, attempt.accepted))
    | some bytesWritten =>
        .inl { attempt with
          calls := attempt.calls + 1
          total := (attempt.total + bytesWritten) % 2 ^ 32
          accepted := attempt.accepted ++ bytes.take bytesWritten }
  else .inr (.returns (true, attempt.accepted))

namespace TcpSocketClient

def Writes (device : Device) (bytes : Bytes) : Exec (Bool × Bytes) → Prop :=
  Loop.Ends (sendRound device bytes) (.start bytes)

end TcpSocketClient

namespace TcpSocketServer

def Writes (device : Device) (connected : Bool) (bytes : Bytes)
    (result : Exec (Bool × Bytes)) : Prop :=
  if connected then Loop.Ends (sendRound device bytes) (.start bytes) result
  else result = .returns (false, [])

end TcpSocketServer

namespace NamedPipeClient

def Writes (device : Device) (bytes : Bytes) : Exec (Bool × Bytes) → Prop :=
  Loop.Ends (writeFileRound device bytes) (.start bytes)

end NamedPipeClient

/-- The function ends, and what the system has accepted is the front of the message, all of
it if the function returns true. -/
def Delivers (bytes : Bytes) (writes : Exec (Bool × Bytes) → Prop) : Prop :=
  ∃ success accepted, writes (.returns (success, accepted)) ∧
    accepted <+: bytes ∧ (success = true → accepted = bytes)

structure Offering (bytes : Bytes) (attempt : Attempt) : Prop where
  total_add : attempt.total + attempt.bytesLeft = bytes.length % 2 ^ 32
  small : attempt.total = 0 ∨ bytes.length % 2 ^ 32 < 2 ^ 31
  accepted_eq : attempt.accepted = bytes.take attempt.total

theorem sendRound_spec (device : Device) {bytes : Bytes} {attempt : Attempt}
    (hoffering : Offering bytes attempt) :
    (∃ next, sendRound device bytes attempt = .inl next ∧ Offering bytes next ∧
        next.bytesLeft < attempt.bytesLeft) ∨
      ∃ result, sendRound device bytes attempt = .inr result ∧
        ∃ success accepted, result = .returns (success, accepted) ∧
          accepted <+: bytes ∧ (success = true → accepted = bytes) := by
  obtain ⟨htotal, hsmall, haccepted⟩ := hoffering
  have hfront : attempt.accepted <+: bytes := haccepted ▸ List.take_prefix _ _
  unfold sendRound
  by_cases hgoes : attempt.total < bytes.length
  · rw [if_pos hgoes]
    simp only
    cases hcount : device.accepts attempt.calls
        (Int.bmod attempt.bytesLeft (2 ^ 32)).toNat with
    | none => exact .inr ⟨_, rfl, false, _, rfl, hfront, by simp⟩
    | some bytesSent =>
        obtain ⟨hpositive, hoffered⟩ := device.accepts_le _ _ _ hcount
        have hoffer : bytesSent ≤ attempt.bytesLeft ∧ attempt.bytesLeft < 2 ^ 31 := by
          rw [Int.bmod_def] at hoffered
          split at hoffered
          · omega
          · omega
        simp only
        rw [if_neg (by omega)]
        refine .inl ⟨_, rfl, ⟨?_, ?_, ?_⟩, ?_⟩
        · simp only
          omega
        · exact .inr (by omega)
        · simp only [haccepted, List.take_add]
        · simp only
          omega
  · rw [if_neg hgoes]
    refine .inr ⟨_, rfl, true, _, rfl, hfront, fun _ => ?_⟩
    rw [haccepted, List.take_of_length_le (by omega)]

theorem sends_delivers (device : Device) (bytes : Bytes) :
    Delivers bytes (Loop.Ends (sendRound device bytes) (.start bytes)) := by
  have hstart : Offering bytes (.start bytes) := ⟨by simp [Attempt.start], .inl rfl, rfl⟩
  obtain ⟨result, hends, success, accepted, rfl, hspec⟩ :=
    Loop.exists_ends (fun _ => sendRound_spec device) hstart
  exact ⟨success, accepted, hends, hspec⟩

namespace NamedPipeClient

def sent (device : Device) (offered : Nat) : Nat → Option Nat
  | 0 => some 0
  | call + 1 => do
      let total ← sent device offered call
      let count ← device.accepts call offered
      return total + count

/-- Wherever a further write is accepted the message begins anew, as far as that write
goes. -/
def Repeats (device : Device) (bytes : Bytes) : Prop :=
  ∀ call total count, sent device (bytes.length % 2 ^ 32) call = some total →
    total < bytes.length ∨ 2 ^ 32 ≤ bytes.length →
    device.accepts call (bytes.length % 2 ^ 32) = some count →
    bytes.take count <+: bytes.drop total

variable {device : Device} {bytes : Bytes}

theorem sent_succ {offered call total : Nat} :
    sent device offered (call + 1) = some total ↔
      ∃ before count, sent device offered call = some before ∧
        device.accepts call offered = some count ∧ before + count = total := by
  simp only [sent, Option.bind_eq_bind, Option.bind_eq_some_iff, Option.pure_def,
    Option.some.injEq]
  constructor
  · intro hsent
    obtain ⟨before, hbefore, count, hcount, htotal⟩ := hsent
    exact ⟨before, count, hbefore, hcount, htotal⟩
  · intro hsent
    obtain ⟨before, count, hbefore, hcount, htotal⟩ := hsent
    exact ⟨before, hbefore, count, hcount, htotal⟩

theorem sent_of_le {offered earlier call total : Nat} (hle : earlier ≤ call)
    (hsent : sent device offered call = some total) :
    ∃ before, sent device offered earlier = some before ∧ before ≤ total := by
  induction hle generalizing total with
  | refl => exact ⟨total, hsent, le_refl _⟩
  | step hle ih =>
      obtain ⟨middle, count, hmiddle, -, rfl⟩ := sent_succ.mp hsent
      obtain ⟨before, hbefore, hless⟩ := ih hmiddle
      exact ⟨before, hbefore, hless.trans (Nat.le_add_right _ _)⟩

theorem accepts_le_length {call count : Nat}
    (hcount : device.accepts call (bytes.length % 2 ^ 32) = some count) :
    1 ≤ count ∧ count ≤ bytes.length := by
  obtain ⟨hpositive, hoffered⟩ := device.accepts_le _ _ _ hcount
  exact ⟨hpositive, hoffered.trans (Nat.mod_le _ _)⟩

theorem writeFileRound_next {attempt : Attempt} {total count : Nat}
    (htotal : attempt.total = total % 2 ^ 32)
    (hgoes : total < bytes.length ∨ 2 ^ 32 ≤ bytes.length)
    (hcount : device.accepts attempt.calls (bytes.length % 2 ^ 32) = some count) :
    writeFileRound device bytes attempt = .inl { attempt with
      calls := attempt.calls + 1
      total := (total + count) % 2 ^ 32
      accepted := attempt.accepted ++ bytes.take count } := by
  have hless : attempt.total < bytes.length := by omega
  have hwraps : (attempt.total + count) % 2 ^ 32 = (total + count) % 2 ^ 32 := by omega
  rw [writeFileRound, if_pos hless, hcount, ← hwraps]

def Piping (device : Device) (bytes : Bytes) (attempt : Attempt) : Prop :=
  ∃ total, sent device (bytes.length % 2 ^ 32) attempt.calls = some total ∧
    attempt.total = total % 2 ^ 32 ∧ total ≤ bytes.length ∧
    attempt.accepted = bytes.take total

theorem writeFileRound_spec (hrepeats : Repeats device bytes) {attempt : Attempt}
    (hpiping : Piping device bytes attempt) :
    (∃ next, writeFileRound device bytes attempt = .inl next ∧ Piping device bytes next ∧
        bytes.length - next.accepted.length < bytes.length - attempt.accepted.length) ∨
      ∃ result, writeFileRound device bytes attempt = .inr result ∧
        ∃ success accepted, result = .returns (success, accepted) ∧
          accepted <+: bytes ∧ (success = true → accepted = bytes) := by
  obtain ⟨total, hsent, htotal, hinside, haccepted⟩ := hpiping
  have hfront : attempt.accepted <+: bytes := haccepted ▸ List.take_prefix _ _
  by_cases hless : attempt.total < bytes.length
  · have hgoes : total < bytes.length ∨ 2 ^ 32 ≤ bytes.length := by omega
    cases hcount : device.accepts attempt.calls (bytes.length % 2 ^ 32) with
    | none =>
        refine .inr ⟨.returns (false, attempt.accepted), ?_, false, _, rfl, hfront, by simp⟩
        rw [writeFileRound, if_pos hless, hcount]
    | some count =>
        obtain ⟨hpositive, hlength⟩ := accepts_le_length hcount
        have hanew := hrepeats _ _ _ hsent hgoes hcount
        have hcounted := hanew.length_le
        rw [List.length_take, List.length_drop, Nat.min_eq_left hlength] at hcounted
        have hpiece : bytes.take count = (bytes.drop total).take count := by
          have htake := List.prefix_iff_eq_take.mp hanew
          rwa [List.length_take, Nat.min_eq_left hlength] at htake
        have hmore : attempt.accepted ++ bytes.take count = bytes.take (total + count) := by
          rw [haccepted, hpiece, List.take_add]
        refine .inl ⟨_, writeFileRound_next htotal hgoes hcount, ?_, ?_⟩
        · exact ⟨total + count, sent_succ.mpr ⟨_, _, hsent, hcount, rfl⟩, rfl, by omega, hmore⟩
        · change bytes.length - (attempt.accepted ++ bytes.take count).length < _
          rw [hmore, haccepted, List.length_take, List.length_take]
          omega
  · refine .inr ⟨.returns (true, attempt.accepted), ?_, true, _, rfl, hfront, fun _ => ?_⟩
    · rw [writeFileRound, if_neg hless]
    · rw [haccepted, List.take_of_length_le (by omega)]

theorem exists_reached {call total : Nat}
    (hsent : sent device (bytes.length % 2 ^ 32) call = some total)
    (hgoes : total < bytes.length ∨ 2 ^ 32 ≤ bytes.length) :
    ∃ attempt : Attempt, attempt.calls = call ∧ attempt.total = total % 2 ^ 32 ∧
      attempt.accepted.length = total ∧
      ∀ result, Writes device bytes result →
        Loop.Ends (writeFileRound device bytes) attempt result := by
  induction call generalizing total with
  | zero =>
      obtain rfl := Option.some.inj hsent
      exact ⟨.start bytes, rfl, rfl, rfl, fun _ hends => hends⟩
  | succ call ih =>
      obtain ⟨before, count, hbefore, hcount, rfl⟩ := sent_succ.mp hsent
      obtain ⟨attempt, rfl, htotal, haccepted, hends⟩ := ih hbefore (by omega)
      have hnext := writeFileRound_next htotal (by omega) hcount
      refine ⟨_, rfl, rfl, ?_, fun result hresult =>
        (Loop.ends_of_next hnext).mp (hends result hresult)⟩
      simp only [List.length_append, List.length_take, haccepted,
        Nat.min_eq_left (accepts_le_length hcount).2]

theorem accepted_kept {attempt : Attempt} {success : Bool} {accepted front : Bytes}
    (hfront : front <+: attempt.accepted)
    (hends : Loop.Ends (writeFileRound device bytes) attempt (.returns (success, accepted))) :
    front <+: accepted := by
  refine Loop.Ends.keeps (I := fun attempt => front <+: attempt.accepted)
    (Q := fun result => ∀ success accepted, result = .returns (success, accepted) →
      front <+: accepted) ?_ ?_ hfront hends success accepted rfl
  · intro state next hstate hround
    rw [writeFileRound] at hround
    split at hround
    · split at hround
      · cases hround
      · cases hround
        exact hstate.trans (List.prefix_append _ _)
    · cases hround
  · intro state result hstate hround success accepted hresult
    subst hresult
    rw [writeFileRound] at hround
    split at hround
    · split at hround
      · cases hround
        exact hstate
      · cases hround
    · cases hround
      exact hstate

theorem delivers_iff : Delivers bytes (Writes device bytes) ↔ Repeats device bytes := by
  constructor
  · intro hdelivers call total count hsent hgoes hcount
    obtain ⟨success, accepted, hends, hfront, -⟩ := hdelivers
    obtain ⟨attempt, rfl, htotal, hlength, hreached⟩ := exists_reached hsent hgoes
    have hnext := writeFileRound_next htotal hgoes hcount
    have hlast := (Loop.ends_of_next hnext).mp (hreached _ hends)
    have hpart := (accepted_kept List.prefix_rfl hlast).trans hfront
    obtain ⟨rest, hrest⟩ := hpart
    refine ⟨rest, ?_⟩
    rw [← @List.drop_left' _ attempt.accepted (bytes.take count ++ rest) total hlength,
      ← List.append_assoc]
    exact congrArg (List.drop total) hrest
  · intro hrepeats
    have hstart : Piping device bytes (.start bytes) := ⟨0, rfl, rfl, Nat.zero_le _, rfl⟩
    obtain ⟨result, hends, success, accepted, rfl, hspec⟩ :=
      Loop.exists_ends (fun _ => writeFileRound_spec hrepeats) hstart
    exact ⟨success, accepted, hends, hspec⟩

theorem delivers_all_iff (device : Device) (size : Nat) :
    (∀ bytes : Bytes, bytes.length = size → Delivers bytes (Writes device bytes)) ↔
      device.accepts 0 (size % 2 ^ 32) = none ∨
        device.accepts 0 (size % 2 ^ 32) = some size ∨
        device.accepts 1 (size % 2 ^ 32) = none := by
  constructor
  · intro hdelivers
    cases hfirst : device.accepts 0 (size % 2 ^ 32) with
    | none => exact .inl rfl
    | some first =>
        cases hsecond : device.accepts 1 (size % 2 ^ 32) with
        | none => exact .inr (.inr rfl)
        | some second =>
            refine .inr (.inl (congrArg some ?_))
            by_contra hpart
            obtain ⟨hpositive, hoffered⟩ := device.accepts_le _ _ _ hfirst
            have hsecondPositive := (device.accepts_le _ _ _ hsecond).1
            have hmod := Nat.mod_le size (2 ^ 32)
            have hlength : (0 :: List.replicate (size - 1) 1 : Bytes).length = size := by
              rw [List.length_cons, List.length_replicate]
              omega
            have hrepeats := delivers_iff.mp (hdelivers _ hlength)
            have hanew := hrepeats 1 first second
            rw [hlength] at hanew
            have hsent := sent_succ.mpr ⟨0, first, rfl, hfirst, Nat.zero_add first⟩
            have hfront := hanew hsent (by omega) hsecond
            obtain ⟨below, rfl⟩ : ∃ below, first = below + 1 := ⟨first - 1, by omega⟩
            obtain ⟨further, rfl⟩ : ∃ further, second = further + 1 :=
              ⟨second - 1, by omega⟩
            obtain ⟨left, hleft⟩ : ∃ left, size - 1 - below = left + 1 :=
              ⟨size - 2 - below, by omega⟩
            rw [List.take_succ_cons, List.drop_succ_cons, List.drop_replicate, hleft,
              List.replicate_succ, List.cons_prefix_cons] at hfront
            exact absurd hfront.1 (by decide)
  · intro hdevice bytes hlength
    subst hlength
    apply delivers_iff.mpr
    intro call total count hsent hgoes hcount
    cases call with
    | zero =>
        obtain rfl := Option.some.inj hsent
        exact List.take_prefix _ _
    | succ call =>
        obtain ⟨before, hbefore, hless⟩ := sent_of_le (Nat.le_add_left 1 call) hsent
        obtain ⟨none, first, hnone, hfirst, rfl⟩ := sent_succ.mp hbefore
        obtain rfl := Option.some.inj hnone
        rcases hdevice with hfails | hwhole | hfails
        · rw [hfails] at hfirst
          cases hfirst
        · obtain rfl := Option.some.inj (hfirst.symm.trans hwhole)
          have hoffered := (device.accepts_le _ _ _ hfirst).2
          omega
        · cases call with
          | zero =>
              rw [hfails] at hcount
              cases hcount
          | succ call =>
              obtain ⟨more, hmore, -⟩ := sent_of_le (Nat.le_add_left 2 call) hsent
              obtain ⟨_, second, -, hsecond, -⟩ := sent_succ.mp hmore
              rw [hfails] at hsecond
              cases hsecond

end NamedPipeClient

/-- The loops around `send` deliver every message.  The one around `WriteFile` delivers
this message exactly when the message repeats itself behind every part accepted, and all
messages of its length exactly when no write is accepted behind a part. -/
theorem write_loops (device : Device) (bytes : Bytes) :
    Delivers bytes (TcpSocketClient.Writes device bytes) ∧
      (∀ connected, Delivers bytes (TcpSocketServer.Writes device connected bytes)) ∧
      (Delivers bytes (NamedPipeClient.Writes device bytes) ↔
        NamedPipeClient.Repeats device bytes) ∧
      ((∀ other : Bytes, other.length = bytes.length →
          Delivers other (NamedPipeClient.Writes device other)) ↔
        device.accepts 0 (bytes.length % 2 ^ 32) = none ∨
          device.accepts 0 (bytes.length % 2 ^ 32) = some bytes.length ∨
          device.accepts 1 (bytes.length % 2 ^ 32) = none) := by
  refine ⟨sends_delivers device bytes, ?_, NamedPipeClient.delivers_iff,
    NamedPipeClient.delivers_all_iff device bytes.length⟩
  intro connected
  cases connected with
  | true => exact sends_delivers device bytes
  | false => exact ⟨false, [], rfl, List.nil_prefix, by simp⟩

private def narrowPipe : Device where
  accepts call offered :=
    if offered = 0 then none else if call = 0 ∧ 2 ≤ offered then some 2 else some 1
  accepts_le := by
    intro call offered count hcount
    split at hcount
    · cases hcount
    · split at hcount
      all_goals
        cases hcount
        omega

theorem third_byte_lost :
    NamedPipeClient.Writes narrowPipe [1, 2, 3] (.returns (true, [1, 2, 1])) ∧
      ¬ Delivers [1, 2, 3] (NamedPipeClient.Writes narrowPipe [1, 2, 3]) := by
  refine ⟨⟨3, rfl⟩, ?_⟩
  intro hdelivers
  have hfront := NamedPipeClient.delivers_iff.mp hdelivers 1 2 1 rfl (.inl (by decide)) rfl
  exact absurd hfront (by decide)

end Rpcmple.Cpp
