import Rpcmple.Data.Bytes

namespace Rpcmple.Data

/-! Self-delimiting byte formats.  A format is an emitter and a parser that undo
each other, so composing formats composes both laws. -/

/-- An emitter and a parser for the values a format admits.  The parser returns
the bytes it leaves unread. -/
structure Format (α : Type) where
  Valid : α → Prop
  emit : α → Bytes
  parse : Bytes → Option (α × Bytes)
  parse_emit : ∀ {value : α} (rest : Bytes), Valid value →
    parse (emit value ++ rest) = some (value, rest)
  parse_sound : ∀ {bytes : Bytes} {value : α} {rest : Bytes},
    parse bytes = some (value, rest) → Valid value ∧ emit value ++ rest = bytes

namespace Format

variable {α β : Type}

theorem parse_emit_nil (format : Format α) {value : α}
    (hvalid : format.Valid value) :
    format.parse (format.emit value) = some (value, []) := by
  simpa using format.parse_emit [] hvalid

def empty : Format α where
  Valid _ := False
  emit _ := []
  parse _ := none
  parse_emit := by
    intro value rest hvalid
    exact hvalid.elim
  parse_sound := by
    intro bytes value rest hparse
    cases hparse

@[simp] theorem empty_parse (bytes : Bytes) :
    (empty : Format α).parse bytes = none := rfl

@[simp] theorem empty_valid (value : α) : ¬ (empty : Format α).Valid value :=
  fun hvalid => hvalid

def scalar (width : Nat) (toNat : α → Nat) (ofNat : Nat → α)
    (hbound : ∀ value, toNat value < 256 ^ width)
    (hofNat : ∀ value, ofNat (toNat value) = value)
    (htoNat : ∀ number, number < 256 ^ width → toNat (ofNat number) = number) :
    Format α where
  Valid _ := True
  emit value := leBytes width (toNat value)
  parse bytes :=
    (splitBytes? width bytes).map fun split => (ofNat (leValue split.1), split.2)
  parse_emit := by
    intro value rest _
    rw [splitBytes?_append rest (length_leBytes width (toNat value))]
    simp [leValue_leBytes (hbound value), hofNat]
  parse_sound := by
    intro bytes value rest hparse
    obtain ⟨⟨front, tail⟩, hsplit, heq⟩ := Option.map_eq_some_iff.mp hparse
    obtain ⟨hlength, rfl⟩ := splitBytes?_eq_some.mp hsplit
    obtain ⟨rfl, rfl⟩ := Prod.mk.inj heq
    refine ⟨trivial, ?_⟩
    have hlt : leValue front < 256 ^ width := leValue_lt_of_length hlength
    rw [htoNat _ hlt, leBytes_leValue_of_length hlength]

theorem scalar_parse (width : Nat) (toNat : α → Nat) (ofNat : Nat → α)
    (hbound : ∀ value, toNat value < 256 ^ width)
    (hofNat : ∀ value, ofNat (toNat value) = value)
    (htoNat : ∀ number, number < 256 ^ width → toNat (ofNat number) = number)
    (bytes : Bytes) :
    (scalar width toNat ofNat hbound hofNat htoNat).parse bytes =
      (splitBytes? width bytes).map fun split =>
        (ofNat (leValue split.1), split.2) := rfl

/-- A byte string behind a `width`-byte length. -/
def blob (width : Nat) : Format Bytes where
  Valid value := value.length < 256 ^ width
  emit value := leBytes width value.length ++ value
  parse bytes :=
    (splitBytes? width bytes).bind fun split =>
      splitBytes? (leValue split.1) split.2
  parse_emit := by
    intro value rest hvalid
    rw [List.append_assoc,
      splitBytes?_append (value ++ rest) (length_leBytes width value.length)]
    simp only [Option.bind_some, leValue_leBytes hvalid]
    exact splitBytes?_append rest rfl
  parse_sound := by
    intro bytes value rest hparse
    obtain ⟨⟨front, tail⟩, hsplit, htail⟩ := Option.bind_eq_some_iff.mp hparse
    obtain ⟨hlength, rfl⟩ := splitBytes?_eq_some.mp hsplit
    obtain ⟨hvalue, rfl⟩ := splitBytes?_eq_some.mp htail
    have hlt : leValue front < 256 ^ width := leValue_lt_of_length hlength
    refine ⟨hvalue ▸ hlt, ?_⟩
    rw [hvalue, leBytes_leValue_of_length hlength, List.append_assoc]

theorem blob_parse (width : Nat) (bytes : Bytes) :
    (blob width).parse bytes =
      (splitBytes? width bytes).bind fun split =>
        splitBytes? (leValue split.1) split.2 := rfl

/-- The values a partial inverse pair carries from `α` into `β`. -/
def embed (format : Format α) (inject : α → β) (project : β → Option α)
    (hproject : ∀ target value, project target = some value ↔ inject value = target) :
    Format β where
  Valid target := ∃ value, inject value = target ∧ format.Valid value
  emit target := (project target).elim [] format.emit
  parse bytes := (format.parse bytes).map fun parsed => (inject parsed.1, parsed.2)
  parse_emit := by
    rintro target rest ⟨value, rfl, hvalid⟩
    rw [(hproject _ value).mpr rfl]
    simp [format.parse_emit rest hvalid]
  parse_sound := by
    intro bytes target rest hparse
    obtain ⟨⟨value, tail⟩, hvalue, heq⟩ := Option.map_eq_some_iff.mp hparse
    obtain ⟨rfl, rfl⟩ := Prod.mk.inj heq
    obtain ⟨hvalid, hbytes⟩ := format.parse_sound hvalue
    refine ⟨⟨value, rfl, hvalid⟩, ?_⟩
    rw [(hproject _ value).mpr rfl]
    exact hbytes

def tagged (tag : α → UInt8) (select : UInt8 → Format α)
    (htag : ∀ byte value, (select byte).Valid value → tag value = byte) :
    Format α where
  Valid value := (select (tag value)).Valid value
  emit value := tag value :: (select (tag value)).emit value
  parse
    | [] => none
    | byte :: rest => (select byte).parse rest
  parse_emit := by
    intro value rest hvalid
    exact (select (tag value)).parse_emit rest hvalid
  parse_sound := by
    intro bytes value rest hparse
    cases bytes with
    | nil => cases hparse
    | cons byte bytes =>
        obtain ⟨hvalid, rfl⟩ := (select byte).parse_sound hparse
        rw [htag byte value hvalid]
        exact ⟨hvalid, rfl⟩

def emitAll (format : Format α) (values : List α) : Bytes :=
  values.flatMap format.emit

def parseTimes (format : Format α) : Nat → Bytes → Option (List α × Bytes)
  | 0, bytes => some ([], bytes)
  | count + 1, bytes =>
      (format.parse bytes).bind fun parsed =>
        (parseTimes format count parsed.2).map fun tail =>
          (parsed.1 :: tail.1, tail.2)

@[simp] theorem emitAll_nil (format : Format α) : format.emitAll [] = [] := rfl

@[simp] theorem emitAll_cons (format : Format α) (value : α) (values : List α) :
    format.emitAll (value :: values) =
      format.emit value ++ format.emitAll values := rfl

theorem parseTimes_emitAll (format : Format α) {values : List α} (rest : Bytes)
    (hvalid : ∀ value ∈ values, format.Valid value) :
    format.parseTimes values.length (format.emitAll values ++ rest) =
      some (values, rest) := by
  induction values with
  | nil => rfl
  | cons value values ih =>
      have htail := ih fun other hmem => hvalid other (List.mem_cons_of_mem _ hmem)
      have hhead := format.parse_emit (format.emitAll values ++ rest)
        (hvalid value List.mem_cons_self)
      simp only [emitAll_cons, List.append_assoc, List.length_cons, parseTimes,
        hhead, Option.bind_some, htail, Option.map_some]

theorem parseTimes_sound (format : Format α) {count : Nat} {bytes rest : Bytes}
    {values : List α}
    (hparse : format.parseTimes count bytes = some (values, rest)) :
    values.length = count ∧ (∀ value ∈ values, format.Valid value) ∧
      format.emitAll values ++ rest = bytes := by
  induction count generalizing bytes values with
  | zero =>
      cases hparse
      simp
  | succ count ih =>
      obtain ⟨⟨value, middle⟩, hvalue, hmap⟩ := Option.bind_eq_some_iff.mp hparse
      obtain ⟨⟨tail, tailRest⟩, htail, heq⟩ := Option.map_eq_some_iff.mp hmap
      obtain ⟨rfl, rfl⟩ := Prod.mk.inj heq
      obtain ⟨hvalid, rfl⟩ := format.parse_sound hvalue
      obtain ⟨hlength, htailValid, hbytes⟩ := ih htail
      refine ⟨by simp [hlength], ?_, ?_⟩
      · intro other hmem
        rcases List.mem_cons.mp hmem with rfl | hmem
        · exact hvalid
        · exact htailValid other hmem
      · rw [emitAll_cons, List.append_assoc, hbytes]

/-- A sequence of values behind a `width`-byte element count. -/
def counted (width : Nat) (format : Format α) : Format (List α) where
  Valid values :=
    values.length < 256 ^ width ∧ ∀ value ∈ values, format.Valid value
  emit values := leBytes width values.length ++ format.emitAll values
  parse bytes :=
    (splitBytes? width bytes).bind fun split =>
      format.parseTimes (leValue split.1) split.2
  parse_emit := by
    rintro values rest ⟨hlength, hvalid⟩
    rw [List.append_assoc,
      splitBytes?_append (format.emitAll values ++ rest)
        (length_leBytes width values.length)]
    simp only [Option.bind_some, leValue_leBytes hlength]
    exact format.parseTimes_emitAll rest hvalid
  parse_sound := by
    intro bytes values rest hparse
    obtain ⟨⟨front, tail⟩, hsplit, htimes⟩ := Option.bind_eq_some_iff.mp hparse
    obtain ⟨hfront, rfl⟩ := splitBytes?_eq_some.mp hsplit
    obtain ⟨hlength, hvalid, rfl⟩ := format.parseTimes_sound htimes
    have hlt : leValue front < 256 ^ width := leValue_lt_of_length hfront
    refine ⟨⟨hlength ▸ hlt, hvalid⟩, ?_⟩
    rw [hlength, leBytes_leValue_of_length hfront, List.append_assoc]

theorem counted_parse (width : Nat) (format : Format α) (bytes : Bytes) :
    (counted width format).parse bytes =
      (splitBytes? width bytes).bind fun split =>
        format.parseTimes (leValue split.1) split.2 := rfl

def done : Format (List α) where
  Valid values := values = []
  emit _ := []
  parse bytes := some ([], bytes)
  parse_emit := by
    rintro values rest rfl
    rfl
  parse_sound := by
    intro bytes values rest hparse
    cases hparse
    exact ⟨rfl, rfl⟩

def cons (head : Format α) (tail : Format (List α)) : Format (List α) where
  Valid
    | [] => False
    | value :: values => head.Valid value ∧ tail.Valid values
  emit
    | [] => []
    | value :: values => head.emit value ++ tail.emit values
  parse bytes :=
    (head.parse bytes).bind fun parsed =>
      (tail.parse parsed.2).map fun following =>
        (parsed.1 :: following.1, following.2)
  parse_emit := by
    intro values rest hvalid
    cases values with
    | nil => exact hvalid.elim
    | cons value values =>
        have hhead := head.parse_emit (tail.emit values ++ rest) hvalid.1
        simp only [List.append_assoc, hhead, Option.bind_some,
          tail.parse_emit rest hvalid.2, Option.map_some]
  parse_sound := by
    intro bytes values rest hparse
    obtain ⟨⟨value, middle⟩, hvalue, hmap⟩ := Option.bind_eq_some_iff.mp hparse
    obtain ⟨⟨following, tailRest⟩, htail, heq⟩ := Option.map_eq_some_iff.mp hmap
    obtain ⟨rfl, rfl⟩ := Prod.mk.inj heq
    obtain ⟨hheadValid, rfl⟩ := head.parse_sound hvalue
    obtain ⟨htailValid, rfl⟩ := tail.parse_sound htail
    exact ⟨⟨hheadValid, htailValid⟩, List.append_assoc _ _ _⟩

def sequence : List (Format α) → Format (List α)
  | [] => done
  | format :: formats => cons format (sequence formats)

theorem sequence_valid_iff {formats : List (Format α)} {values : List α} :
    (sequence formats).Valid values ↔
      List.Forall₂ (fun format value => format.Valid value) formats values := by
  induction formats generalizing values with
  | nil => simp [sequence, done]
  | cons format formats ih =>
      cases values with
      | nil => simp [sequence, cons]
      | cons value values => simp [sequence, cons, ih]

def scalarsOf (width : Nat) (ofNat : Nat → α) : Nat → Bytes → List α
  | 0, _ => []
  | count + 1, bytes =>
      ofNat (leValue (bytes.take width)) ::
        scalarsOf width ofNat count (bytes.drop width)

theorem parseTimes_scalar (width : Nat) (toNat : α → Nat) (ofNat : Nat → α)
    (hbound : ∀ value, toNat value < 256 ^ width)
    (hofNat : ∀ value, ofNat (toNat value) = value)
    (htoNat : ∀ number, number < 256 ^ width → toNat (ofNat number) = number)
    (count : Nat) (bytes : Bytes) :
    (scalar width toNat ofNat hbound hofNat htoNat).parseTimes count bytes =
      (splitBytes? (width * count) bytes).map fun split =>
        (scalarsOf width ofNat count split.1, split.2) := by
  induction count generalizing bytes with
  | zero => simp [parseTimes, splitBytes?, scalarsOf]
  | succ count ih =>
      rw [parseTimes, scalar_parse]
      cases hfirst : splitBytes? width bytes with
      | none =>
          have hshort := splitBytes?_eq_none.mp hfirst
          have hall : splitBytes? (width * (count + 1)) bytes = none :=
            splitBytes?_eq_none.mpr (by rw [Nat.mul_succ]; omega)
          rw [hall]
          rfl
      | some split =>
          obtain ⟨front, tail⟩ := split
          obtain ⟨hfront, rfl⟩ := splitBytes?_eq_some.mp hfirst
          simp only [Option.map_some, Option.bind_some, ih]
          cases htail : splitBytes? (width * count) tail with
          | none =>
              have hshort := splitBytes?_eq_none.mp htail
              have hall : splitBytes? (width * (count + 1)) (front ++ tail) = none :=
                splitBytes?_eq_none.mpr (by
                  rw [List.length_append, Nat.mul_succ]; omega)
              rw [hall]
              rfl
          | some split =>
              obtain ⟨middle, rest⟩ := split
              obtain ⟨hmiddle, rfl⟩ := splitBytes?_eq_some.mp htail
              have hlength : (front ++ middle).length = width * (count + 1) := by
                rw [List.length_append, hfront, hmiddle, Nat.mul_succ, Nat.add_comm]
              rw [← List.append_assoc, splitBytes?_append rest hlength]
              simp [scalarsOf, ← hfront]

end Format

end Rpcmple.Data
