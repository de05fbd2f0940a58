import Rpcmple.Go.RpcClient
import Rpcmple.Wire.Frame

namespace Rpcmple.Go

open Data DataSignature

def MessageParser.reads {σ : Type} (methods : MessageParser σ) : Cutter σ where
  len parser := methods.GetMessageLen parser
  accept parser piece :=
    if (methods.ParseMessage parser piece).1 then some (methods.ParseMessage parser piece).2
    else none

theorem MessageParser.reads_eq_some {σ : Type} {methods : MessageParser σ}
    {parser next : σ} {piece : Bytes} :
    methods.reads.accept parser piece = some next ↔
      methods.ParseMessage parser piece = (true, next) := by
  simp only [reads]
  rcases methods.ParseMessage parser piece with ⟨success, parser⟩
  cases success <;> simp

theorem readUint32_header (high size : Nat) :
    readUint32 (Frame.header high size) =
      some (UInt32.ofNat (high * 16777216 + size)) := by
  rw [readUint32_of_length (Frame.length_header high size), Frame.header,
    leValue_leBytes_mod]
  congr 1
  apply UInt32.toNat_inj.mp
  rw [UInt32.toNat_ofNat', UInt32.toNat_ofNat']
  omega

theorem header_eq (index size : Nat) :
    leBytes 4 ((UInt8.ofNat index).toUInt32 * 16777216 + UInt32.ofNat size).toNat =
      Frame.header index size := by
  rw [Frame.header, ← leBytes_mod 4 (index * 16777216 + size)]
  congr 1
  rw [UInt32.toNat_add, UInt32.toNat_mul, UInt32.toNat_ofNat', UInt8.toNat_toUInt32,
    UInt8.toNat_ofNat']
  change (index % 2 ^ 8 * 16777216 % 2 ^ 32 + size % 2 ^ 32) % 2 ^ 32 = _
  omega

theorem header_flag {high size : Nat} (hhigh : high < 256) (hsize : size < 16777216) :
    (UInt32.ofNat (high * 16777216 + size) / 16777216 == 1) = (high == 1) := by
  rw [Bool.eq_iff_iff, beq_iff_eq, beq_iff_eq, ← UInt32.toNat_inj, UInt32.toNat_div,
    UInt32.toNat_ofNat']
  change (high * 16777216 + size) % 2 ^ 32 / 16777216 = 1 ↔ high = 1
  omega

theorem header_size (high : Nat) {size : Nat} (hsize : size < 16777216) :
    UInt32.ofNat (high * 16777216 + size) % 16777216 = UInt32.ofNat size := by
  apply UInt32.toNat_inj.mp
  rw [UInt32.toNat_mod, UInt32.toNat_ofNat', UInt32.toNat_ofNat']
  change (high * 16777216 + size) % 2 ^ 32 % 16777216 = size % 2 ^ 32
  omega

theorem toNat_size {size : Nat} (hsize : size < 16777216) :
    (UInt32.ofNat size).toNat = size := by
  rw [UInt32.toNat_ofNat']
  omega

theorem size_pos_iff {size : Nat} (hsize : size < 16777216) :
    UInt32.ofNat size > 0 ↔ size ≠ 0 := by
  rw [gt_iff_lt, UInt32.lt_iff_toNat_lt, toNat_size hsize]
  change 0 < size ↔ _
  omega

namespace DataSubscriber

def expectHeader (ds : DataSubscriber) : DataSubscriber :=
  { ds with sectionLen := 4, sectionID := 0 }

def expectBody (ds : DataSubscriber) (high size : Nat) : DataSubscriber :=
  { ds with
    publisherSuccess := high == 1
    sectionLen := UInt32.ofNat size
    sectionID := 1 }

def published (ds : DataSubscriber) (message : Bytes) : Option (Bool × Bytes) :=
  if ds.sectionID = 1 then some (ds.publisherSuccess, message) else none

def reader : FrameReader methods.reads DataSubscriber (Bool × Bytes) where
  atHeader := expectHeader
  atBody := expectBody
  handle ds frame :=
    methods.reads.accept (ds.expectBody frame.high frame.body.length) frame.body
  observe _ frame := (frame.high == 1, frame.body)
  observed := published
  eager := false
  len_header _ := rfl
  len_body _ _ _ hsize := toNat_size hsize
  header ds high size hhigh hsize _ := by
    have hsection : ds.expectHeader.sectionID = 0 := rfl
    refine ⟨MessageParser.reads_eq_some.mpr ?_, rfl⟩
    change ds.expectHeader.ParseMessage (Frame.header high size) =
      (true, ds.expectBody high size)
    rw [ParseMessage, if_pos hsection, parseHeader,
      if_neg (not_not.mpr (Frame.length_header high size)), readUint32_header]
    simp only [header_flag hhigh hsize, header_size high hsize]
    rfl
  empty _ _ _ heager := Bool.noConfusion heager
  body ds frame _ _ := by
    refine ⟨?_, rfl⟩
    cases haccept : methods.reads.accept (ds.expectBody frame.high frame.body.length)
        frame.body with
    | none => rfl
    | some next =>
        rw [Option.map_some]
        congr 1
        have hparse : ParseMessage (ds.expectBody frame.high frame.body.length) frame.body =
            (true, next) := MessageParser.reads_eq_some.mp haccept
        rcases ParseMessage_framed hparse with ⟨hsection, -, -⟩ | ⟨-, hsection, hlen⟩
        · cases hsection
        · rw [expectHeader, ← hsection, ← hlen]

end DataSubscriber

namespace RpcClient

def expectBody (rc : RpcClient) (high size : Nat) : RpcClient :=
  { rc with
    replySuccess := high == 1
    sectionLen := UInt32.ofNat size
    sectionID := 1 }

def replied (rc : RpcClient) (message : Bytes) : Option (Bool × Bytes) :=
  if rc.sectionID = 0 then
    (readUint32 message).bind fun section1 =>
      if section1 % 16777216 > 0 then none else some (section1 / 16777216 == 1, [])
  else if rc.sectionID = 1 then some (rc.replySuccess, message)
  else none

variable {rc next : RpcClient}

theorem reads_header {high size : Nat} (hhigh : high < 256) (hsize : size < 16777216)
    (hbody : size ≠ 0) :
    rc.expectHeader.ParseMessage (Frame.header high size) = (true, rc.expectBody high size) ∧
      rc.expectHeader.replied (Frame.header high size) = none := by
  have hpositive := (size_pos_iff hsize).mpr hbody
  have hsection : rc.expectHeader.sectionID = 0 := rfl
  constructor
  · rw [ParseMessage, if_pos hsection, parseHeader,
      if_neg (not_not.mpr (Frame.length_header high size)), readUint32_header]
    simp only [header_flag hhigh hsize, header_size high hsize]
    rw [if_pos hpositive]
    rfl
  · rw [replied, if_pos hsection, readUint32_header, Option.bind_some, header_size high hsize,
      if_pos hpositive]

theorem replied_empty {high : Nat} (hhigh : high < 256) :
    rc.expectHeader.replied (Frame.header high 0) = some (high == 1, []) := by
  have hsection : rc.expectHeader.sectionID = 0 := rfl
  have hzero : 0 < 16777216 := by omega
  rw [replied, if_pos hsection, readUint32_header, Option.bind_some, header_size high hzero,
    if_neg (by decide), header_flag hhigh hzero]

theorem replied_body {message : Bytes} (hsection : rc.sectionID = 1) :
    rc.replied message = some (rc.replySuccess, message) := by
  rw [replied, if_neg (by rw [hsection]; decide), if_pos hsection]

theorem expectHeader_of_reply {message : Bytes} {reply : Bool × Bytes}
    (hreplied : rc.replied message = some reply)
    (hparse : rc.ParseMessage message = (true, next)) : next.expectHeader = next := by
  unfold ParseMessage at hparse
  unfold replied at hreplied
  split at hparse
  · rename_i hsection
    rw [if_pos hsection] at hreplied
    obtain ⟨section1, hread, hempty⟩ := Option.bind_eq_some_iff.mp hreplied
    unfold parseHeader at hparse
    rw [hread] at hparse
    simp only at hparse
    split at hparse
    · cases hparse
    · split at hparse
      · rename_i hpositive
        rw [if_pos hpositive] at hempty
        cases hempty
      · split at hparse
        · cases hparse
        · cases hparse
          rfl
  · split at hparse
    · unfold parseBody at hparse
      simp only at hparse
      split at hparse
      · cases hparse
      · cases hparse
        rfl
    · cases hparse

variable (others : Nat → Shared)

theorem methods_ParseMessage (state : RpcClient × Nat) (message : Bytes) :
    (methods others).ParseMessage state message =
      (((meet others state).ParseMessage message).1,
        (((meet others state).ParseMessage message).2, state.2 + 1)) := rfl

theorem reads_len (state : RpcClient × Nat) :
    (methods others).reads.len state = state.1.sectionLen.toNat := rfl

theorem accept_of_parse {state : RpcClient × Nat} {message : Bytes} {next : RpcClient}
    (hparse : (meet others state).ParseMessage message = (true, next)) :
    (methods others).reads.accept state message = some (next, state.2 + 1) := by
  rw [MessageParser.reads_eq_some, methods_ParseMessage, hparse]

def waiting (state : RpcClient × Nat) : RpcClient × Nat := (state.1.expectHeader, state.2)

def receiving (state : RpcClient × Nat) (high size : Nat) : RpcClient × Nat :=
  ((meet others state).expectBody high size, state.2 + 1)

theorem meet_waiting (state : RpcClient × Nat) :
    meet others (waiting state) = (meet others state).expectHeader := rfl

theorem accept_of_reply {state : RpcClient × Nat} {message : Bytes} {reply : Bool × Bytes}
    (hreplied : state.1.replied message = some reply) :
    (methods others).reads.accept state message =
      ((methods others).reads.accept state message).map waiting := by
  cases haccept : (methods others).reads.accept state message with
  | none => rfl
  | some next =>
      have hparse : ((meet others state).ParseMessage message).1 = true ∧
          ((meet others state).ParseMessage message).2 = next.1 := by
        have hboth := MessageParser.reads_eq_some.mp haccept
        exact ⟨congrArg Prod.fst hboth, congrArg (fun result => result.2.1) hboth⟩
      have hheader := @expectHeader_of_reply (meet others state) _ _ _ hreplied
        (Prod.ext hparse.1 hparse.2)
      rw [Option.map_some, waiting, hheader]

def take (state : RpcClient × Nat) (frame : Frame) : Option (RpcClient × Nat) :=
  if frame.body.length = 0 then
    (methods others).reads.accept (waiting state) (Frame.header frame.high 0)
  else
    (methods others).reads.accept (receiving others state frame.high frame.body.length)
      frame.body

variable (state : RpcClient × Nat)

theorem len_receiving (high : Nat) {size : Nat} (hsize : size < 16777216) :
    (methods others).reads.len (receiving others state high size) = size := by
  rw [reads_len]
  have hlen : (receiving others state high size).1.sectionLen = UInt32.ofNat size := rfl
  rw [hlen, toNat_size hsize]

theorem accept_header {high size : Nat} (hhigh : high < 256) (hsize : size < 16777216)
    (hbody : size ≠ 0) :
    (methods others).reads.accept (waiting state) (Frame.header high size) =
      some (receiving others state high size) := by
  have hparse := (@reads_header (meet others state) _ _ hhigh hsize hbody).1
  rw [← meet_waiting] at hparse
  exact accept_of_parse others hparse

theorem take_of_empty {frame : Frame} {high : Nat} (hhigh : frame.high = high)
    (hbody : frame.body.length = 0) :
    take others state frame =
      (methods others).reads.accept (waiting state) (Frame.header high 0) := by
  rw [take, if_pos hbody, hhigh]

theorem accept_empty {high : Nat} (hhigh : high < 256) :
    (methods others).reads.accept (waiting state) (Frame.header high 0) =
      (take others state ⟨high, []⟩).map waiting := by
  have hreplied : (waiting state).1.replied (Frame.header high 0) = some (high == 1, []) :=
    replied_empty hhigh
  have htake := @take_of_empty others state ⟨high, []⟩ high rfl rfl
  rw [htake]
  exact accept_of_reply others hreplied

theorem accept_body {frame : Frame} (hbody : frame.body.length ≠ 0) :
    (methods others).reads.accept (receiving others state frame.high frame.body.length)
        frame.body =
      (take others state frame).map waiting := by
  have hsection : (receiving others state frame.high frame.body.length).1.sectionID = 1 := rfl
  rw [take, if_neg hbody]
  exact accept_of_reply others (replied_body hsection)

def reader : FrameReader (methods others).reads (RpcClient × Nat) (Bool × Bytes) where
  atHeader := waiting
  atBody := receiving others
  handle := take others
  observe _ frame := (frame.high == 1, frame.body)
  observed state message := state.1.replied message
  eager := true
  len_header _ := rfl
  len_body state high _ hsize := len_receiving others state high hsize
  header state _ _ hhigh hsize hbody :=
    have hsize' := fun hzero => hbody ⟨rfl, hzero⟩
    ⟨accept_header others state hhigh hsize hsize',
      (@reads_header state.1 _ _ hhigh hsize hsize').2⟩
  empty state _ hhigh _ := ⟨accept_empty others state hhigh, @replied_empty state.1 _ hhigh⟩
  body state _ _ hbody :=
    ⟨accept_body others state fun hzero => hbody ⟨rfl, hzero⟩, replied_body rfl⟩

end RpcClient

end Rpcmple.Go
