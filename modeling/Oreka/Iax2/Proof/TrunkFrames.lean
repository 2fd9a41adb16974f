import Mathlib.Algebra.Ring.Nat
import Oreka.Iax2.Proof.SameState

/-!
# Well-formed meta trunk frames

`TrunkFrame` is a frame as its sender means it: a header and entries, each of which could be a mini
frame of its own (`miniPacket`). The trunk parser reports its entries, and the mini parser reports
the same of each (`metaTrunkFrame_packet`, `miniVoiceFrame_miniPacket`).
-/

namespace Oreka.Iax2

open Oreka.Net

/-- A 16-bit number in network order. -/
def be16 (n : Nat) : List UInt8 := [UInt8.ofNat (n / 256), UInt8.ofNat n]

@[simp] theorem length_be16 (n : Nat) : (be16 n).length = 2 := rfl

theorem ntohs_be16 {n : Nat} (h : n < 65536) (b : List UInt8) : ntohs (be16 n ++ b) 0 = n := by
  simp only [ntohs, byte, be16, List.cons_append, List.nil_append, List.getD_cons_zero,
    List.getD_cons_succ, UInt8.toNat_ofNat', Nat.zero_add]
  omega

/-! ## Entries -/

/-- An entry that could be a mini frame of its own. -/
structure TrunkEntry.WellFormed (e : TrunkEntry) : Prop where
  scallno : e.scallno.toNat < 32768
  nonempty : e.data ≠ []
  fits : e.data.length < 65536

/-- An entry in a frame, with or without its timestamp. -/
def TrunkEntry.bytes (timestamps : Bool) (e : TrunkEntry) : List UInt8 :=
  if timestamps then be16 e.data.length ++ (be16 e.scallno.toNat ++ (be16 e.ts.toNat ++ e.data))
  else be16 e.scallno.toNat ++ (be16 e.data.length ++ e.data)

theorem callno_be16 {c : UInt16} (h : c.toNat < 32768) (b : List UInt8) :
    callno (be16 c.toNat ++ b) 0 = c := by
  unfold callno
  rw [ntohs_be16 c.toNat_lt, Nat.mod_eq_of_lt h, UInt16.ofNat_toNat]

/-- The parser steps over an entry that is all there. -/
theorem TrunkEntry.WellFormed.trunkEntries_append {e : TrunkEntry} (h : e.WellFormed)
    {timestamps : Bool} (hts : timestamps = false → e.ts = 0) (fuel : Nat) (rest : List UInt8) :
    trunkEntries timestamps (fuel + 1) (e.bytes timestamps ++ rest) =
      e :: trunkEntries timestamps fuel rest := by
  have hs := e.scallno.toNat_lt
  have ht := e.ts.toNat_lt
  unfold TrunkEntry.bytes
  cases timestamps with
  | true =>
    rw [if_pos rfl, List.append_assoc, List.append_assoc, List.append_assoc]
    set b := be16 e.data.length ++ (be16 e.scallno.toNat ++ (be16 e.ts.toNat ++ (e.data ++ rest)))
      with hb
    have hlen : ntohs b 0 = e.data.length := ntohs_be16 h.fits _
    have hcall : callno b 2 = e.scallno :=
      callno_be16 h.scallno (be16 e.ts.toNat ++ (e.data ++ rest))
    have hstamp : ntohs b 4 = e.ts.toNat := ntohs_be16 ht (e.data ++ rest)
    have hdrop : b.drop 6 = e.data ++ rest := rfl
    have hsize : b.length = 6 + (e.data.length + rest.length) := by simp [hb]; omega
    have hnext : b.drop (6 + e.data.length) = rest := by
      rw [← List.drop_drop, hdrop, List.drop_left]
    rw [trunkEntries]
    simp only [if_true, hlen, hcall, hstamp, hdrop, hnext, List.take_left, UInt16.ofNat_toNat]
    rw [if_neg (by omega), if_neg (by omega)]
  | false =>
    rw [if_neg (by decide), List.append_assoc, List.append_assoc]
    set b := be16 e.scallno.toNat ++ (be16 e.data.length ++ (e.data ++ rest)) with hb
    have hlen : ntohs b 2 = e.data.length := ntohs_be16 h.fits (e.data ++ rest)
    have hcall : callno b 0 = e.scallno := callno_be16 h.scallno _
    have hdrop : b.drop 4 = e.data ++ rest := rfl
    have hsize : b.length = 4 + (e.data.length + rest.length) := by simp [hb]; omega
    have hnext : b.drop (4 + e.data.length) = rest := by
      rw [← List.drop_drop, hdrop, List.drop_left]
    rw [trunkEntries]
    simp only [Bool.false_eq_true, if_false, hlen, hcall, hdrop, hnext, List.take_left]
    rw [if_neg (by omega), if_neg (by omega)]
    congr 1
    rw [← hts rfl]

theorem TrunkEntry.length_bytes_pos (timestamps : Bool) (e : TrunkEntry) :
    0 < (e.bytes timestamps).length := by
  unfold TrunkEntry.bytes
  split <;> exact Nat.succ_pos _

/-- The parser steps over all the entries of a frame. -/
theorem trunkEntries_flatMap {timestamps : Bool} {entries : List TrunkEntry}
    (h : ∀ e ∈ entries, e.WellFormed) (hts : timestamps = false → ∀ e ∈ entries, e.ts = 0)
    {fuel : Nat} (hfuel : (entries.flatMap (·.bytes timestamps)).length ≤ fuel) :
    trunkEntries timestamps fuel (entries.flatMap (·.bytes timestamps)) = entries := by
  induction entries generalizing fuel with
  | nil =>
    cases fuel with
    | zero => rfl
    | succ fuel => cases timestamps <;> simp [trunkEntries]
  | cons e entries ih =>
    rw [List.flatMap_cons, List.length_append] at hfuel
    have hpos := e.length_bytes_pos timestamps
    obtain ⟨fuel, rfl⟩ : ∃ k, fuel = k + 1 := ⟨fuel - 1, by omega⟩
    rw [List.flatMap_cons, (h e List.mem_cons_self).trunkEntries_append
      fun hf => hts hf e List.mem_cons_self]
    rw [ih (fun e he => h e (List.mem_cons_of_mem _ he))
      (fun hf e he => hts hf e (List.mem_cons_of_mem _ he)) (by omega)]

/-! ## Frames -/

/-- A meta trunk frame; bit 0 of `cmddata` says whether its entries have timestamps. -/
structure TrunkFrame where
  ipSrc : InAddr
  ipDest : InAddr
  cmddata : UInt8
  ts : UInt32
  entries : List TrunkEntry
  wellFormed : ∀ e ∈ entries, e.WellFormed
  noTimestamps : cmddata &&& 1 = 0 → ∀ e ∈ entries, e.ts = 0

namespace TrunkFrame

def timestamps (f : TrunkFrame) : Bool := f.cmddata &&& 1 ≠ 0

/-- The frame as it is sent. -/
def packet (f : TrunkFrame) : UdpPacket where
  ipSrc := f.ipSrc
  ipDest := f.ipDest
  payload := be16 0 ++ ([1, f.cmddata] ++ (be16 (f.ts.toNat / 65536) ++ (be16 (f.ts.toNat % 65536) ++
    f.entries.flatMap (·.bytes f.timestamps))))

/-- An entry as a mini frame of the same sender. -/
def miniPacket (f : TrunkFrame) (e : TrunkEntry) : UdpPacket where
  ipSrc := f.ipSrc
  ipDest := f.ipDest
  payload := be16 e.scallno.toNat ++ (be16 e.ts.toNat ++ e.data)

/-- What is reported of the entries, read at the times that the clock shows. -/
def infos (f : TrunkFrame) (clock : Nat → Int) : List Iax2PacketInfo :=
  f.entries.mapIdx fun i e => e.info f.packet (clock i)

/-- The trunk parser reports the entries of the frame. -/
theorem metaTrunkFrame_packet (f : TrunkFrame) (clock : Nat → Int) :
    metaTrunkFrame f.packet clock = f.infos clock := by
  set body := f.entries.flatMap (·.bytes f.timestamps) with hbody
  have hlen : f.packet.payload.length = 8 + body.length := by
    simp [packet, hbody]
    omega
  have hmeta : ntohs f.packet.payload 0 = 0 := ntohs_be16 (by decide) _
  have hcmd : byte f.packet.payload 2 = 1 := rfl
  have hdata : byte f.packet.payload 3 = f.cmddata := rfl
  have hdrop : f.packet.payload.drop 8 = body := rfl
  have hentries : trunkEntries (f.cmddata &&& 1 ≠ 0) f.packet.payload.length body = f.entries :=
    trunkEntries_flatMap f.wellFormed (fun h => f.noTimestamps (by simpa using h))
      (by rw [hlen]; exact Nat.le_add_left ..)
  unfold metaTrunkFrame infos
  dsimp only
  rw [if_neg (by omega), if_neg (by omega), hcmd, if_neg (by decide), if_neg (by decide), hdata,
    hdrop, hentries]

/-- The mini parser reports the same of an entry sent on its own. -/
theorem miniVoiceFrame_miniPacket (f : TrunkFrame) {e : TrunkEntry} (he : e.WellFormed)
    (now : Int) : miniVoiceFrame (f.miniPacket e) now = some (e.info f.packet now) := by
  have hpos := List.length_pos_of_ne_nil he.nonempty
  have hlen : (f.miniPacket e).payload.length = 4 + e.data.length := by
    simp [miniPacket]
    omega
  have hcall : callno (f.miniPacket e).payload 0 = e.scallno := callno_be16 he.scallno _
  have hfull : isFullFrame (f.miniPacket e).payload = false := by
    unfold isFullFrame
    rw [show ntohs (f.miniPacket e).payload 0 = e.scallno.toNat from ntohs_be16 e.scallno.toNat_lt _]
    exact decide_eq_false (Nat.not_le.2 he.scallno)
  have hstamp : ntohs (f.miniPacket e).payload 2 = e.ts.toNat :=
    ntohs_be16 e.ts.toNat_lt e.data
  have hdrop : (f.miniPacket e).payload.drop 4 = e.data := rfl
  have hts : UInt32.ofNat e.ts.toNat = e.ts.toUInt32 := by simp
  unfold miniVoiceFrame
  dsimp only
  rw [if_neg (by omega), hfull, if_neg (by decide), if_neg (by omega), hcall, hstamp, hdrop, hlen,
    Nat.add_sub_cancel_left, hts]
  rfl

end TrunkFrame

end Oreka.Iax2
