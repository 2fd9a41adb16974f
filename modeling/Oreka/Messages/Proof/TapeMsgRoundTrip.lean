import Oreka.Messages.TapeMsg
import Oreka.Serializers.Proof.CsvMap
import Oreka.Serializers.Proof.Integers

/-!
# What the URL of a tape message restores

A message is written as the pairs of `pairs`; each value that is read is the one that was written, up to
its first NUL (`define_serialize`, `define_deSerialize`). `roundTrips_iff` is the condition on the message.
-/

open Std

namespace Oreka.Messages

open Serializers UrlSerializer

/-! ## The pairs of a message -/

namespace TapeMsg

/-- The pairs that a message is written as. -/
def pairs (m : TapeMsg) : List (List UInt8 × List UInt8) :=
  [(bytes "type", bytes "tape"), (bytes "recid", m.recId), (bytes "stage", m.stage),
    (bytes "captureport", m.capturePort), (bytes "timestamp", Serializers.intToString (lowInt m.timestamp)),
    (bytes "filename", m.fileName), (bytes "localparty", m.localParty),
    (bytes "localentrypoint", m.localEntryPoint), (bytes "remoteparty", m.remoteParty),
    (bytes "direction", m.direction), (bytes "duration", Serializers.intToString m.duration),
    (bytes "service", m.serviceName), (bytes "localip", m.localIp), (bytes "remoteip", m.remoteIp),
    (bytes "nativecallid", m.nativeCallId), (bytes "tags", csvMapString m.tags),
    (bytes "ondemand", bytes (if m.onDemand then "true" else "false")),
    (bytes "side", m.audioKeepDirection), (bytes "live", bytes (if m.live then "true" else "false")),
    (bytes "hostname", m.hostname)]

theorem serialize_eq (m : TapeMsg) : m.serialize = .ok (UrlSerializer.serialize m.pairs) := by
  have h : m.serialize = .ok (m.pairs.foldl (fun s p => s ++ UrlSerializer.addString p.1 p.2) []) := rfl
  rw [h, UrlSerializer.serialize, List.flatMap_eq_foldl]

theorem isKey_pairs (m : TapeMsg) : ∀ p ∈ m.pairs, IsKey p.1 := by
  have h : ∀ key ∈ m.pairs.map Prod.fst, IsKey key := by
    simp only [pairs, List.map_cons, List.map_nil]
    decide +kernel
  exact fun p hp => h p.1 (List.mem_map_of_mem hp)

theorem nodup_pairs (m : TapeMsg) : (m.pairs.map Prod.fst).Nodup := by
  simp only [pairs, List.map_cons, List.map_nil]
  decide +kernel

theorem keysFit_of_length {pairs : List (List UInt8 × List UInt8)}
    (h : ∀ p ∈ pairs, p.1.length ≤ 1024) : KeysFit pairs := by
  induction pairs with
  | nil => trivial
  | cons p pairs ih =>
    obtain ⟨hp, hpairs⟩ := List.forall_mem_cons.1 h
    exact ⟨.inl hp, ih hpairs⟩

theorem keysFit_pairs (m : TapeMsg) : KeysFit m.pairs := by
  have h : ∀ key ∈ m.pairs.map Prod.fst, key.length ≤ 1024 := by
    simp only [pairs, List.map_cons, List.map_nil]
    decide +kernel
  exact keysFit_of_length fun p hp => h p.1 (List.mem_map_of_mem hp)

/-- The map that the parser leaves: each value, up to its first NUL. -/
theorem deSerialize_pairs (m : TapeMsg) :
    ∃ map, UrlSerializer.deSerialize (UrlSerializer.serialize m.pairs) = some map ∧
      ∀ key v, (key, v) ∈ m.pairs → map[key]? = some (cString v) := by
  rw [deSerialize_serialize m.isKey_pairs]
  obtain ⟨map, hmap, hlookup⟩ := (finds_iff codec (.inr rfl) m.isKey_pairs m.keysFit_pairs
    (m.pairs.map fun p => (p.1, cString p.2))).2 fun key => (lookup_map_snd _ _ key).symm
  refine ⟨map, hmap, fun key v hv => ?_⟩
  rw [hlookup, lookup_map_snd, lookup_of_mem m.nodup_pairs hv, Option.map_some]

/-! ## Reading -/

section
variable {α β : Type} {s s' : Serializer}

theorem bind_ok {x : SerializerM α} {a : α} {f : α → SerializerM β} (h : x s = .ok (a, s')) :
    (x >>= f) s = f a s' := by
  show Except.bind (x s) (fun p => f p.1 p.2) = f a s'
  rw [h]
  rfl

theorem bind_error {x : SerializerM α} {failure : Failure} {f : α → SerializerM β}
    (h : x s = .error failure) : (x >>= f) s = .error failure := by
  show Except.bind (x s) (fun p => f p.1 p.2) = .error failure
  rw [h]
  rfl

variable {map : PairMap} {key : String} {text : List UInt8} (hmap : map[bytes key]? = some text)
include hmap

theorem getString_some (v : List UInt8) (required : Bool) :
    SerializerM.getString key v required { deSerialize := true, map } =
      .ok (text, { deSerialize := true, map }) := by
  have hget : (get : SerializerM Serializer) { deSerialize := true, map } =
      .ok ({ deSerialize := true, map }, { deSerialize := true, map }) := rfl
  rw [SerializerM.getString, bind_ok hget]
  dsimp only
  rw [hmap]
  rfl

theorem stringValue_some (v : List UInt8) (required : Bool) :
    SerializerM.stringValue key v required { deSerialize := true, map } =
      .ok (text, { deSerialize := true, map }) :=
  getString_some hmap v required

omit hmap in
theorem intValue_some {integer : Int32} (hmap : map[bytes key]? = some (Serializers.intToString integer)) (v : Int32)
    (required : Bool) : SerializerM.intValue key v required { deSerialize := true, map } =
      .ok (integer, { deSerialize := true, map }) := by
  have hne : Serializers.intToString integer ≠ [] := by
    rw [intToString_eq]
    split <;> simp [Nat.toDigits_ne_nil]
  show SerializerM.getInt key v required _ = _
  rw [SerializerM.getInt, bind_ok (getString_some hmap [] required), if_pos hne,
    stringToInt_intToString]
  rfl

omit hmap in
theorem boolValue_some {b : Bool} (hmap : map[bytes key]? = some (bytes (if b then "true" else "false")))
    (v : Bool) (required : Bool) : SerializerM.boolValue key v required { deSerialize := true, map } =
      .ok (b, { deSerialize := true, map }) := by
  show SerializerM.getBool key v required _ = _
  rw [SerializerM.getBool, bind_ok (getString_some hmap [] required)]
  cases b with
  | true =>
    rw [if_pos (.inl (by decide +kernel))]
    rfl
  | false =>
    rw [if_neg (by decide +kernel), if_pos (.inl (by decide +kernel))]
    rfl

theorem csvMapValue_some (required : Bool) :
    SerializerM.csvMapValue key ∅ required { deSerialize := true, map } =
      (readCsvMap text).map fun m => (m, { deSerialize := true, map }) := by
  show SerializerM.getCsvMap key ∅ required _ = _
  have hcsv : SerializerM.getCsv key [] required { deSerialize := true, map } =
      .ok (splitCsv [] text, { deSerialize := true, map }) := by
    rw [SerializerM.getCsv, bind_ok (getString_some hmap [] required)]
    rfl
  rw [SerializerM.getCsvMap, bind_ok hcsv, readCsvMap]
  cases List.foldlM insertPair ∅ (splitCsv [] text) <;> rfl

end

/-- What is read from the URL of `m`. -/
def restored (m : TapeMsg) (tags : PairMap) : TapeMsg where
  recId := cString m.recId
  stage := cString m.stage
  timestamp := setLowInt 0 (lowInt m.timestamp)
  fileName := cString m.fileName
  capturePort := cString m.capturePort
  localParty := cString m.localParty
  localEntryPoint := cString m.localEntryPoint
  remoteParty := cString m.remoteParty
  direction := cString m.direction
  audioKeepDirection := cString m.audioKeepDirection
  duration := m.duration
  serviceName := cString m.serviceName
  localIp := cString m.localIp
  remoteIp := cString m.remoteIp
  nativeCallId := cString m.nativeCallId
  tags
  onDemand := m.onDemand
  live := m.live
  hostname := cString m.hostname

theorem cString_bool (b : Bool) :
    cString (bytes (if b then "true" else "false")) = bytes (if b then "true" else "false") := by
  cases b <;> decide +kernel

theorem new_tags (serviceName hostname : List UInt8) (onDemand : Bool) :
    (new serviceName hostname onDemand).tags = ∅ := rfl

/-- A new message that reads the pairs of `m`. -/
theorem define_pairs {m : TapeMsg} {map : PairMap}
    (hmap : ∀ key v, (key, v) ∈ m.pairs → map[key]? = some (cString v))
    (serviceName hostname : List UInt8) (onDemand : Bool) :
    (new serviceName hostname onDemand).define { deSerialize := true, map } =
      (readCsvMap (cString (csvMapString m.tags))).map
        fun tags => (m.restored tags, { deSerialize := true, map }) := by
  have hmem (n : Nat) (hn : n < m.pairs.length) : map[m.pairs[n].1]? = some (cString m.pairs[n].2) :=
    hmap _ _ (List.getElem_mem hn)
  have hint (n : Nat) (hn : n < m.pairs.length) {integer : Int32}
      (h : m.pairs[n].2 = Serializers.intToString integer) : map[m.pairs[n].1]? = some (Serializers.intToString integer) := by
    rw [hmem n hn, h, cString_eq_self.2 (zero_not_mem_intToString integer)]
  have hbool (n : Nat) (hn : n < m.pairs.length) {b : Bool}
      (h : m.pairs[n].2 = bytes (if b then "true" else "false")) :
      map[m.pairs[n].1]? = some (bytes (if b then "true" else "false")) := by
    rw [hmem n hn, h, cString_bool]
  have hlen : m.pairs.length = 20 := rfl
  rw [define,
    bind_ok (stringValue_some (hmem 0 (by omega)) _ _),
    bind_ok (stringValue_some (hmem 1 (by omega)) _ _),
    bind_ok (stringValue_some (hmem 2 (by omega)) _ _),
    bind_ok (stringValue_some (hmem 3 (by omega)) _ _),
    bind_ok (intValue_some (hint 4 (by omega) rfl) _ _),
    bind_ok (stringValue_some (hmem 5 (by omega)) _ _),
    bind_ok (stringValue_some (hmem 6 (by omega)) _ _),
    bind_ok (stringValue_some (hmem 7 (by omega)) _ _),
    bind_ok (stringValue_some (hmem 8 (by omega)) _ _),
    bind_ok (stringValue_some (hmem 9 (by omega)) _ _),
    bind_ok (intValue_some (hint 10 (by omega) rfl) _ _),
    bind_ok (stringValue_some (hmem 11 (by omega)) _ _),
    bind_ok (stringValue_some (hmem 12 (by omega)) _ _),
    bind_ok (stringValue_some (hmem 13 (by omega)) _ _),
    bind_ok (stringValue_some (hmem 14 (by omega)) _ _)]
  have htags := csvMapValue_some (hmem 15 (by omega)) false
  cases hread : readCsvMap (cString (csvMapString m.tags)) with
  | error failure =>
    rw [show m.pairs[15].2 = csvMapString m.tags from rfl, hread] at htags
    exact bind_error htags
  | ok tags =>
    rw [show m.pairs[15].2 = csvMapString m.tags from rfl, hread] at htags
    rw [new_tags, bind_ok htags, bind_ok (boolValue_some (hbool 16 (by omega) rfl) _ _),
      bind_ok (stringValue_some (hmem 17 (by omega)) _ _),
      bind_ok (boolValue_some (hbool 18 (by omega) rfl) _ _),
      bind_ok (stringValue_some (hmem 19 (by omega)) _ _)]
    rfl

/-- What a new message is after reading the URL of `m`. -/
theorem deSerialize_serialize_eq (m : TapeMsg) (serviceName hostname : List UInt8) (onDemand : Bool) :
    (new serviceName hostname onDemand).deSerialize (UrlSerializer.serialize m.pairs) =
      (readCsvMap (cString (csvMapString m.tags))).map m.restored := by
  obtain ⟨map, hmap, hlookup⟩ := m.deSerialize_pairs
  rw [deSerialize, hmap]
  show (·.1) <$> (new serviceName hostname onDemand).define { deSerialize := true, map } = _
  rw [define_pairs hlookup]
  cases readCsvMap (cString (csvMapString m.tags)) <;> rfl

/-! ## The round trip -/

/-- Two messages are equal: in each field, and in what each tag is. -/
def Same (m m' : TapeMsg) : Prop :=
  { m with tags := ∅ } = { m' with tags := ∅ } ∧ ∀ key : List UInt8, m.tags[key]? = m'.tags[key]?

/-- A new message that reads the URL of `m` is equal to `m`, whatever it began with. -/
def RoundTrips (m : TapeMsg) : Prop :=
  ∀ serviceName hostname onDemand, ∃ url m', m.serialize = .ok url ∧
    (new serviceName hostname onDemand).deSerialize url = .ok m' ∧ m'.Same m

/-- The strings of a message. -/
def texts (m : TapeMsg) : List (List UInt8) :=
  [m.recId, m.stage, m.fileName, m.capturePort, m.localParty, m.localEntryPoint, m.remoteParty,
    m.direction, m.audioKeepDirection, m.serviceName, m.localIp, m.remoteIp, m.nativeCallId, m.hostname]

/-- A message that its URL can hold. -/
structure Fits (m : TapeMsg) : Prop where
  texts : ∀ text ∈ m.texts, 0 ∉ text
  timestamp : 0 ≤ m.timestamp.toInt ∧ m.timestamp.toInt < 2 ^ 32
  tags : MapFits m.tags

/-- Of a 64-bit time the low half comes back, as a positive number. -/
theorem setLowInt_lowInt (timestamp : Int64) : setLowInt 0 (lowInt timestamp) = timestamp ↔
    0 ≤ timestamp.toInt ∧ timestamp.toInt < 2 ^ 32 := by
  have hlow : (setLowInt 0 (lowInt timestamp)).toBitVec.toNat = timestamp.toBitVec.toNat % 2 ^ 32 := by
    have hwidth : (lowInt timestamp).toBitVec = timestamp.toBitVec.setWidth 32 := by
      simp [lowInt, BitVec.signExtend_eq_setWidth_of_le]
    have hzero : BitVec.extractLsb' 32 32 (0 : Int64).toBitVec = 0#32 := by decide
    rw [setLowInt, hwidth, hzero]
    show (0#32 ++ timestamp.toBitVec.setWidth 32).toNat = _
    rw [BitVec.toNat_append, BitVec.toNat_setWidth, BitVec.toNat_ofNat, Nat.zero_mod,
      Nat.zero_shiftLeft, Nat.zero_or]
  have hint : timestamp.toInt = timestamp.toBitVec.toInt := rfl
  rw [← Int64.toBitVec_inj, ← BitVec.toNat_inj, hlow, hint, BitVec.toInt_eq_toNat_cond]
  have := timestamp.toBitVec.isLt
  split <;> omega

theorem restored_same (m : TapeMsg) (tags : PairMap) : (m.restored tags).Same m ↔
    (∀ text ∈ m.texts, 0 ∉ text) ∧ (0 ≤ m.timestamp.toInt ∧ m.timestamp.toInt < 2 ^ 32) ∧
      ∀ key : List UInt8, tags[key]? = m.tags[key]? := by
  simp only [Same, restored, texts, TapeMsg.mk.injEq, cString_eq_self, setLowInt_lowInt,
    List.forall_mem_cons, List.not_mem_nil]
  tauto

theorem RoundTrips.fits {m : TapeMsg} (h : m.RoundTrips) : m.Fits := by
  obtain ⟨url, m', hurl, hm', hsame⟩ := h [] [] false
  rw [serialize_eq] at hurl
  cases hurl
  rw [deSerialize_serialize_eq] at hm'
  cases hread : readCsvMap (cString (csvMapString m.tags)) with
  | error failure =>
    rw [hread] at hm'
    cases hm'
  | ok tags =>
    rw [hread] at hm'
    cases hm'
    obtain ⟨htexts, htimestamp, htags⟩ := (restored_same m tags).1 hsame
    exact ⟨htexts, htimestamp, (readCsvMap_iff m.tags).1 ⟨tags, hread, htags⟩⟩

theorem Fits.roundTrips {m : TapeMsg} (h : m.Fits) : m.RoundTrips := by
  intro serviceName hostname onDemand
  obtain ⟨tags, hread, hsame⟩ := (readCsvMap_iff m.tags).2 h.tags
  refine ⟨_, m.restored tags, m.serialize_eq, ?_, (restored_same m tags).2 ⟨h.texts, h.timestamp, hsame⟩⟩
  rw [deSerialize_serialize_eq, hread]
  rfl

/-- **The round trip**: a message comes back from its URL exactly if it fits. -/
theorem roundTrips_iff (m : TapeMsg) : m.RoundTrips ↔ m.Fits := ⟨RoundTrips.fits, Fits.roundTrips⟩

/-- A tag whose value ends in a space. -/
def trailingSpace : TapeMsg :=
  { new [] [] false with tags := (∅ : PairMap).insert (bytes "k") (bytes "v ") }

theorem not_roundTrips_trailingSpace : ¬ trailingSpace.RoundTrips := by
  intro h
  have hfit := h.fits.tags (bytes "k") (bytes "v ") (by decide +kernel)
  exact absurd (hfit.value_end ' '.toUInt8 (by decide +kernel)) (by decide)

end TapeMsg

end Oreka.Messages
