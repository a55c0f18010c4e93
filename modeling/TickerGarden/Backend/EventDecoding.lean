import TickerGarden.Backend.Projection
import TickerGarden.Lib.Reducer

/-!
# The decoding of logs

`Decode` of the Go backend reads a log by the catalog of the events that the modules declare.

## The catalog

An entry of the catalog gives the signature of an event, the modules that declare it, its first
topic and its parameters. `load` refuses a catalog with an entry that cannot be read or two entries
of one module with one first topic; what it returns has the entries under the module and the topic
(`TickerGarden.Backend.EventProjection.mem_of_load`).

## Words

Every parameter is static, and is a word of thirty-two bytes: an indexed one is a topic of the log,
and the others come one after another in its data. A word that is not the canonical encoding of a
value of its type is refused (`TickerGarden.Backend.EventProjection.word`). An integer is kept as
its decimal text, so that JSON does not round it.

## What is decoded

An argument of a decoded event is under the name of a parameter and is a value of the type of that
parameter, and every parameter has its argument
(`TickerGarden.Backend.EventProjection.decode_spec`).
-/

namespace TickerGarden

open Checked

namespace Backend

namespace EventProjection

/-! ### Hexadecimal -/

/-- The value of a byte that is a digit, of either case. -/
def hexDigit (b : UInt8) : Option UInt8 :=
  if 0x30 ≤ b ∧ b ≤ 0x39 then some (b - 0x30)
  else if 0x61 ≤ b ∧ b ≤ 0x66 then some (b - 0x61 + 10)
  else if 0x41 ≤ b ∧ b ≤ 0x46 then some (b - 0x41 + 10)
  else none

/-- `hex.DecodeString`, of the bytes of a text. -/
def hexDecode : List UInt8 → Option (List UInt8)
  | [] => some []
  | [_] => none
  | high :: low :: digits => do
    let h ← hexDigit high
    let l ← hexDigit low
    let bytes ← hexDecode digits
    return (16 * h + l) :: bytes

/-- `hex.EncodeToString`. -/
def hexEncode (bytes : List UInt8) : String :=
  String.ofList (bytes.flatMap fun b => [Nat.digitChar (b.toNat / 16), Nat.digitChar (b.toNat % 16)])

/-- The bytes of a text behind the prefix `0x`, if it has that. -/
def hexDigits (s : String) : Option (List UInt8) :=
  match s.toByteArray.data.toList with
  | 0x30 :: 0x78 :: digits => some digits
  | _ => none

/-- A text with the prefix is not empty, in lower case either. -/
theorem lower_ne_empty {s : String} {digits : List UInt8} (h : hexDigits s = some digits) :
    lower s ≠ "" := by
  intro hempty
  have hlist : s.toList.map Char.toLower = [] := by
    rw [← String.toList_ofList (l := s.toList.map Char.toLower)]
    exact congrArg String.toList hempty
  obtain rfl : s = "" := String.toList_eq_nil_iff.mp (List.map_eq_nil_iff.mp hlist)
  cases h

/-! ### Words -/

/-- `^(u?int)([0-9]+)$`: whether the type is signed, and the number behind it. -/
def integerType (type : String) : Option (Bool × ℕ) :=
  match type.toList with
  | 'u' :: 'i' :: 'n' :: 't' :: digits => (natural digits).map fun bits => (false, bits)
  | 'i' :: 'n' :: 't' :: digits => (natural digits).map fun bits => (true, bits)
  | _ => none

/-- `new(big.Int).SetBytes(b)`. -/
def bigEndian (b : List UInt8) : ℕ := b.foldl (fun n v => 256 * n + v.toNat) 0

/-- The value of a word that is an integer of a number of bits. -/
def integerWord (b : List UInt8) (signed : Bool) (bits : ℕ) : Except String Value := do
  let n := bigEndian b
  if signed then
    let size := bits / 8
    let negative := b.getD (32 - size) 0 &&& 0x80 ≠ 0
    let padding : UInt8 := if negative then 255 else 0
    revertIf ((b.take (32 - size)).any (· ≠ padding) = true) "noncanonical ABI word"
    return .text (toString (if negative then (n : ℤ) - (2 : ℤ) ^ 256 else (n : ℤ)))
  else
    revertIf (2 ^ bits ≤ n) "noncanonical ABI word"
    return .text (toString n)

/-- The value of a word of thirty-two bytes, of a static type. -/
def word (b : List UInt8) (type : String) : Except String Value := do
  revertIf (b.length ≠ 32) "noncanonical ABI word"
  if type = "bytes32" then
    return .text ("0x" ++ hexEncode b)
  else if type = "address" then
    revertIf (b.take 12 ≠ List.replicate 12 0) "noncanonical ABI word"
    return .text ("0x" ++ hexEncode (b.drop 12))
  else if type = "bool" then
    revertIf (b.take 31 ≠ List.replicate 31 0 ∨ 1 < b.getD 31 0) "noncanonical ABI word"
    return .flag (b.getD 31 0 = 1)
  else
    let (signed, bits) ← orRevert (integerType type) "unsupported ABI event type"
    -- A number that does not fit an `int` of Go is above the greatest width.
    revertIf (bits < 8 ∨ 256 < bits ∨ bits % 8 ≠ 0) "unsupported ABI integer width"
    integerWord b signed bits

theorem word_bytes32 {b : List UInt8} {v : Value} (h : word b "bytes32" = .ok v) :
    ∃ digits, v = .text ("0x" ++ digits) := by
  simp only [word, bind_eq_ok] at h
  obtain ⟨_, -, h⟩ := h
  exact ⟨hexEncode b, (Except.ok.inj h).symm⟩

/-! ### The catalog -/

/-- A parameter of an event: `Input`. -/
structure Parameter where
  name : String
  type : String
  indexed : Bool

/-- An entry of the catalog. Its name is the part of the signature that `nameOf` reads. -/
structure Definition where
  signature : String
  modules : List String
  topic0 : String
  inputs : List Parameter

/-- The checks that are made of an entry when the catalog is loaded. -/
def Definition.check (d : Definition) : Except String Unit := do
  revertIf (d.topic0.utf8ByteSize ≠ 66 ∨ d.modules = [] ∨ 32 < d.inputs.length)
    "invalid event definition"
  let _ ← d.inputs.foldlM (fun names p => do
    revertIf (p.name = "" ∨ p.name ∈ names) "ambiguous event field"
    let _ ← word (List.replicate 32 0) p.type
    return p.name :: names) ([] : List String)
  revertIf (3 < (d.inputs.filter Parameter.indexed).length) "too many indexed fields"

/-- The key of an event of a module. -/
def definitionKey (module topic0 : String) : String := module ++ ":" ++ topic0

/-- An entry of the catalog, under every module that declares it. -/
def declare (definitions : Table String Definition) (d : Definition) :
    Except String (Table String Definition) := do
  d.check
  d.modules.foldlM (fun definitions module => do
    revertIf ((definitions.lookup (definitionKey module d.topic0)).isSome = true)
      "duplicate module event topic"
    return definitions.insert (definitionKey module d.topic0) d) definitions

/-- The entries of the catalog, under their modules and topics. -/
def load (entries : List Definition) : Except String (Table String Definition) := do
  revertIf (entries = []) "invalid embedded event catalog"
  entries.foldlM declare ∅

theorem declare_cases {definitions t : Table String Definition} {d : Definition}
    (h : declare definitions d = .ok t) {k : String} {e : Definition}
    (he : t.lookup k = some e) : e = d ∨ definitions.lookup k = some e := by
  simp only [declare, bind_eq_ok] at h
  obtain ⟨_, -, h⟩ := h
  refine Reducer.invariant (I := fun t : Table String Definition =>
    ∀ k e, t.lookup k = some e → e = d ∨ definitions.lookup k = some e) ?_ h
    (fun _ _ he => Or.inr he) k e he
  intro s module u hs hu k e he
  simp only [bind_eq_ok] at hu
  obtain ⟨_, -, hu⟩ := hu
  obtain rfl := Except.ok.inj hu
  rcases eq_or_ne k (definitionKey module d.topic0) with rfl | hne
  · rw [AList.lookup_insert] at he
    exact Or.inl (Option.some.inj he).symm
  · rw [AList.lookup_insert_ne hne] at he
    exact hs k e he

/-- The definitions that are loaded are entries of the catalog. -/
theorem mem_of_load {entries : List Definition} {definitions : Table String Definition}
    (h : load entries = .ok definitions) {k : String} {d : Definition}
    (hd : definitions.lookup k = some d) : d ∈ entries := by
  have hfold : ∀ (l : List Definition) (s t : Table String Definition),
      l.foldlM declare s = .ok t → t.lookup k = some d → d ∈ l ∨ s.lookup k = some d := by
    intro l
    induction l with
    | nil =>
      intro s t ht hd
      obtain rfl := Except.ok.inj ht
      exact Or.inr hd
    | cons e l ih =>
      intro s t ht hd
      rw [List.foldlM_cons, bind_eq_ok] at ht
      obtain ⟨u, hu, ht⟩ := ht
      rcases ih u t ht hd with hmem | hlookup
      · exact Or.inl (List.mem_cons_of_mem e hmem)
      · rcases declare_cases hu hlookup with rfl | hlookup
        · exact Or.inl List.mem_cons_self
        · exact Or.inr hlookup
  simp only [load, bind_eq_ok] at h
  obtain ⟨_, -, h⟩ := h
  rcases hfold entries ∅ definitions h hd with hmem | hlookup
  · exact hmem
  · rw [AList.lookup_empty] at hlookup
    cases hlookup

/-! ### Logs -/

/-- A topic of a log, as a word. -/
def topicWord (t : String) : Except String (List UInt8) := do
  revertIf (t.utf8ByteSize ≠ 66) "invalid indexed ABI word"
  let digits ← orRevert (hexDigits t) "invalid indexed ABI word"
  orRevert (hexDecode digits) "invalid topic encoding"

/-- The arguments of an event, one parameter after another: an indexed one is the next topic, and
another one is the next word of the data. -/
def readArgs : List Parameter → List String → List UInt8 → Values → Except String Values
  | [], _, _, args => return args
  | p :: inputs, topics, data, args =>
    if p.indexed then do
      let raw ← topicWord (topics.headD "")
      let value ← word raw p.type
      readArgs inputs topics.tail data (args.insert p.name value)
    else do
      let value ← word (data.take 32) p.type
      readArgs inputs topics (data.drop 32) (args.insert p.name value)

/-- The number of the indexed parameters of an event. -/
def Definition.indexed (d : Definition) : ℕ := (d.inputs.filter Parameter.indexed).length

/-- `Decode`, with the catalog or the error it could not be loaded with. -/
def decode (catalog : Except String (Table String Definition)) (module : String) (log : Log) :
    Except String Decoded := do
  let definitions ← catalog
  revertIf (log.removed = true ∨ log.topics = []) "event is not declared by the bound module"
  let d ← orRevert (definitions.lookup (definitionKey module (lower (log.topics.headD ""))))
    "event is not declared by the bound module"
  revertIf (log.address.utf8ByteSize ≠ 42) "invalid event emitter"
  let digits ← orRevert (hexDigits log.address) "invalid event emitter"
  let _ ← orRevert (hexDecode digits) "invalid event emitter"
  revertIf (log.topics.length ≠ d.indexed + 1 ∨
    log.data.utf8ByteSize ≠ 2 + (d.inputs.length - d.indexed) * 64)
    "event topic/data length mismatch"
  let digits ← orRevert (hexDigits log.data) "event topic/data length mismatch"
  let data ← orRevert (hexDecode digits) "invalid event data encoding"
  let args ← readArgs d.inputs log.topics.tail data ∅
  return ⟨d.signature, lower log.address, args⟩

/-- What `readArgs` leaves under a name: a value of the type of a parameter of that name, or what
was there before if no parameter has it. -/
theorem lookup_readArgs {inputs : List Parameter} {topics : List String} {data : List UInt8}
    {args out : Values} (h : readArgs inputs topics data args = .ok out) (k : String) :
    (∃ p ∈ inputs, p.name = k ∧ ∃ raw v, word raw p.type = .ok v ∧ out.lookup k = some v) ∨
      (∀ p ∈ inputs, p.name ≠ k) ∧ out.lookup k = args.lookup k := by
  induction inputs generalizing topics data args with
  | nil =>
    obtain rfl := Except.ok.inj h
    exact Or.inr ⟨fun _ hp => absurd hp List.not_mem_nil, rfl⟩
  | cons p inputs ih =>
    -- Both kinds of parameter put a value under the name, and go on.
    have hread : ∃ raw v topics' data', word raw p.type = .ok v ∧
        readArgs inputs topics' data' (args.insert p.name v) = .ok out := by
      rw [readArgs] at h
      split at h
      · simp only [bind_eq_ok] at h
        obtain ⟨raw, -, v, hv, h⟩ := h
        exact ⟨raw, v, _, _, hv, h⟩
      · simp only [bind_eq_ok] at h
        obtain ⟨v, hv, h⟩ := h
        exact ⟨_, v, _, _, hv, h⟩
    obtain ⟨raw, v, topics', data', hv, h⟩ := hread
    rcases ih h with ⟨q, hq, hname, hvalue⟩ | ⟨hnone, hlookup⟩
    · exact Or.inl ⟨q, List.mem_cons_of_mem p hq, hname, hvalue⟩
    · rcases eq_or_ne p.name k with rfl | hne
      · exact Or.inl ⟨p, List.mem_cons_self, rfl, raw, v, hv,
          by rw [hlookup, AList.lookup_insert]⟩
      · exact Or.inr ⟨List.forall_mem_cons.mpr ⟨hne, hnone⟩,
          by rw [hlookup, AList.lookup_insert_ne hne.symm]⟩

/-- An event that is decoded is of an entry of the catalog: its arguments are the parameters of the
entry, and each is a value of its type. -/
structure Decoded.Of (entries : List Definition) (e : Decoded) (d : Definition) : Prop where
  declared : d ∈ entries
  signature : e.signature = d.signature
  emitter : e.emitter ≠ ""
  typed : ∀ k v, e.args.lookup k = some v →
    ∃ p ∈ d.inputs, p.name = k ∧ ∃ raw, word raw p.type = .ok v
  complete : ∀ p ∈ d.inputs, (e.args.lookup p.name).isSome = true

/-- **What is decoded.** -/
theorem decode_spec {entries : List Definition} {module : String} {log : Log} {e : Decoded}
    (h : decode (load entries) module log = .ok e) : ∃ d, e.Of entries d := by
  simp only [decode, bind_eq_ok, orRevert_eq_ok, revertIf_eq_ok] at h
  obtain ⟨definitions, hload, _, -, d, hd, _, -, digits, hdigits, _, -, _, -, _, -, data, -, args,
    hargs, h⟩ := h
  obtain rfl := Except.ok.inj h
  refine ⟨d, mem_of_load hload hd, rfl, lower_ne_empty hdigits, fun k v hk => ?_, fun p hp => ?_⟩
  · rcases lookup_readArgs hargs k with ⟨p, hp, hname, raw, w, hw, hlookup⟩ | ⟨-, hlookup⟩
    · obtain rfl := Option.some.inj (hk.symm.trans hlookup)
      exact ⟨p, hp, hname, raw, hw⟩
    · rw [hlookup, AList.lookup_empty] at hk
      cases hk
  · rcases lookup_readArgs hargs p.name with ⟨q, -, -, raw, w, -, hlookup⟩ | ⟨hnone, -⟩
    · rw [hlookup]
      rfl
    · exact absurd rfl (hnone p hp)

end EventProjection

end Backend

end TickerGarden
