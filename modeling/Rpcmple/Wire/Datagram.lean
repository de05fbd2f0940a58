import Rpcmple.Wire.Frame
import Rpcmple.Wire.Value

namespace Rpcmple

open Data

def largestDatagram : Nat := 65507

/-- What `sendto` returns, behind the datagrams sent before: an error, or a count.  It
takes a datagram whole or not at all, and none that is too large. -/
structure DatagramNetwork where
  sendto : List Bytes → Bytes → Option Nat
  whole : ∀ sent datagram count, sendto sent datagram = some count →
    count = datagram.length ∧ datagram.length ≤ largestDatagram

def publication (signature : DataSignature) (values : List Value) : Frame :=
  ⟨1, (bodyFormat signature).emit values⟩

def datagram (signature : DataSignature) (group : List (List Value)) : Bytes :=
  group.flatMap fun values => (publication signature values).bytes

structure Sendable (signature : DataSignature) (group : List (List Value)) : Prop where
  valid : ∀ values ∈ group, (bodyFormat signature).Valid values
  full : datagram signature group ≠ []
  short : (datagram signature group).length ≤ largestDatagram

variable {signature : DataSignature} {group : List (List Value)} {values : List Value}

theorem datagram_append (front back : List (List Value)) :
    datagram signature (front ++ back) = datagram signature front ++ datagram signature back :=
  List.flatMap_append

theorem Sendable.body_short (hsendable : Sendable signature group) (hmem : values ∈ group) :
    ((bodyFormat signature).emit values).length < 16777216 := by
  have hle := hsendable.short
  rw [datagram, List.length_flatMap] at hle
  have hpart := List.le_sum_of_mem
    (List.mem_map_of_mem (f := fun values => (publication signature values).bytes.length) hmem)
  simp only [Frame.length_bytes, publication] at hpart hle
  rw [largestDatagram] at hle
  omega

theorem datagram_single {others : List Value} (hvalues : Sendable signature [values])
    (hothers : Sendable signature [others])
    (hsame : datagram signature [values] = datagram signature [others]) : values = others := by
  have hbody : ∀ values, (datagram signature [values]).drop 4 =
      (bodyFormat signature).emit values := by
    intro values
    rw [datagram, List.flatMap_singleton, publication, Frame.bytes]
    exact List.drop_left' (Frame.length_header _ _)
  have hbodies := congrArg (List.drop 4) hsame
  rw [hbody, hbody] at hbodies
  have hparse := (bodyFormat signature).parse_emit_nil
    (List.forall_mem_singleton.mp hvalues.valid)
  rw [hbodies, (bodyFormat signature).parse_emit_nil
    (List.forall_mem_singleton.mp hothers.valid)] at hparse
  exact (Prod.mk.inj (Option.some.inj hparse)).1.symm

theorem body_ne_nil (hsignature : signature ≠ []) (hvalid : (bodyFormat signature).Valid values) :
    (bodyFormat signature).emit values ≠ [] := by
  have htyped := (bodyFormat_valid_iff.mp hvalid).1
  rw [← List.length_pos_iff, length_bodyFormat_emit htyped]
  exact bodySize_pos htyped hsignature

end Rpcmple
