/-
  The built-in HMAC is HMAC-SHA-256 (usersig.cc, against FIPS 180-4 and RFC 2104).

  * `compress_toState`: a block is compressed as the standard does it;
  * `updateNoCount_held`: however data is cut into pieces, what a hasher holds is the state after
    the full blocks, and the bytes that are left;
  * `padZeros_eq`: the loop of the padding ends;
  * `hmac_is_hmac_sha256`: the digests of both functions are the standard's.
-/
import Mathlib.Data.List.GetD
import TrtcAsr.Lib.Fips180
import TrtcAsr.UserSig.Sha256

namespace TrtcAsr

def HashWords.toState (v : HashWords) : Fips180.State :=
  ⟨v.a.toBitVec, v.b.toBitVec, v.c.toBitVec, v.d.toBitVec, v.e.toBitVec, v.f.toBitVec, v.g.toBitVec,
    v.h.toBitVec⟩

namespace Sha256

/-! ## Constants -/

theorem toState_reset : reset.h.toState = Fips180.initial := by decide +kernel

theorem k_eq : k = (List.range 64).map fun t => .ofBitVec (Fips180.roundConstant t) := by
  decide +kernel

/-! ## Compression -/

theorem toBitVec_rotR (x n : UInt32) (h : 0 < n.toNat ∧ n.toNat < 32) :
    (rotR x n).toBitVec = x.toBitVec.rotateRight n.toNat := by
  have hn : n.toNat % 32 = n.toNat := Nat.mod_eq_of_lt h.2
  have hsub : (32 - n).toNat = 32 - n.toNat := UInt32.toNat_sub_of_le 32 n (by
    rw [UInt32.le_iff_toNat_le]
    exact h.2.le)
  apply BitVec.eq_of_toNat_eq
  rw [BitVec.rotateRight_def, hn]
  simp only [rotR, UInt32.toNat_toBitVec, UInt32.toNat_or, UInt32.toNat_shiftRight,
    UInt32.toNat_shiftLeft, BitVec.toNat_or, BitVec.toNat_ushiftRight, BitVec.toNat_shiftLeft, hn,
    hsub]
  rw [Nat.mod_eq_of_lt (by omega : 32 - n.toNat < 32)]

/-- Four bytes that are shifted to their places and joined. -/
theorem toNat_join (b0 b1 b2 b3 : UInt8) :
    ((b0.toUInt32 <<< 24) ||| (b1.toUInt32 <<< 16) ||| (b2.toUInt32 <<< 8) ||| b3.toUInt32).toNat =
      beNat [b0, b1, b2, b3] := by
  have h0 := b0.toNat_lt
  have h1 := b1.toNat_lt
  have h2 := b2.toNat_lt
  have h3 := b3.toNat_lt
  have hshift : b0.toNat <<< 24 % 2 ^ 32 = b0.toNat <<< 24 ∧
      b1.toNat <<< 16 % 2 ^ 32 = b1.toNat <<< 16 ∧ b2.toNat <<< 8 % 2 ^ 32 = b2.toNat <<< 8 := by
    simp only [Nat.shiftLeft_eq]
    omega
  have hlow : b2.toNat <<< 8 ||| b3.toNat = b2.toNat * 256 + b3.toNat := by
    rw [← Nat.shiftLeft_add_eq_or_of_lt h3, Nat.shiftLeft_eq]
  have hmid : b1.toNat <<< 16 ||| (b2.toNat * 256 + b3.toNat) =
      b1.toNat * 65536 + (b2.toNat * 256 + b3.toNat) := by
    rw [← Nat.shiftLeft_add_eq_or_of_lt (by omega), Nat.shiftLeft_eq]
  have hhigh : b0.toNat <<< 24 ||| (b1.toNat * 65536 + (b2.toNat * 256 + b3.toNat)) =
      b0.toNat * 16777216 + (b1.toNat * 65536 + (b2.toNat * 256 + b3.toNat)) := by
    rw [← Nat.shiftLeft_add_eq_or_of_lt (by omega), Nat.shiftLeft_eq]
  simp only [UInt32.toNat_or, UInt32.toNat_shiftLeft, UInt8.toNat_toUInt32, UInt32.reduceToNat,
    Nat.reduceMod]
  rw [hshift.1, hshift.2.1, hshift.2.2, Nat.or_assoc, Nat.or_assoc, hlow, hmid, hhigh]
  simp only [beNat, List.foldl_cons, List.foldl_nil]
  ring

/-- A word is read from its four bytes. -/
theorem word_eq {block : Bytes} {t : ℕ} (h : 4 * t + 4 ≤ block.length) :
    word block t = .ofBitVec (Fips180.messageWord block t) := by
  have hbytes : (block.drop (4 * t)).take 4 =
      [block.getD (4 * t) 0, block.getD (4 * t + 1) 0, block.getD (4 * t + 2) 0,
        block.getD (4 * t + 3) 0] := by
    apply List.ext_getElem
    · simp only [List.length_take, List.length_drop, List.length_cons, List.length_nil]
      omega
    · intro i hi _
      simp only [List.length_take, List.length_drop] at hi
      have hcases : i = 0 ∨ i = 1 ∨ i = 2 ∨ i = 3 := by omega
      rcases hcases with rfl | rfl | rfl | rfl
      all_goals simp only [List.getElem_take, List.getElem_drop, List.getElem_cons_zero,
        List.getElem_cons_succ, Nat.add_zero]
      all_goals exact (List.getD_eq_getElem _ _ (by omega)).symm
  have hlt := beNat_lt ((block.drop (4 * t)).take 4)
  rw [hbytes] at hlt
  norm_num only [List.length_cons, List.length_nil] at hlt
  rw [Fips180.messageWord, hbytes]
  apply UInt32.toNat_inj.1
  change (word block t).toNat = (BitVec.ofNat 32 _).toNat
  rw [BitVec.toNat_ofNat, Nat.mod_eq_of_lt hlt]
  exact toNat_join _ _ _ _

theorem getD_map_range {f : ℕ → UInt32} {n i : ℕ} (h : i < n) :
    ((List.range n).map f).getD i 0 = f i := by
  rw [List.getD_eq_getElem _ _ (by rwa [List.length_map, List.length_range]), List.getElem_map,
    List.getElem_range]

/-- `W_t`. -/
def specWord (block : Bytes) (t : ℕ) : UInt32 :=
  .ofBitVec (Fips180.schedule (Fips180.messageWord block) t)

theorem shiftRight_three (x : Fips180.Word) : x >>> (UInt32.toBitVec 3 % 32) = x >>> 3 := rfl

theorem shiftRight_ten (x : Fips180.Word) : x >>> (UInt32.toBitVec 10 % 32) = x >>> 10 := rfl

theorem toBitVec_specWord (block : Bytes) (t : ℕ) : (specWord block t).toBitVec =
    Fips180.schedule (Fips180.messageWord block) t := rfl

/-- A word of the schedule, where the words before it are those of the standard. -/
theorem scheduleWord_eq (block : Bytes) {i : ℕ} (h : 16 ≤ i) :
    scheduleWord ((List.range i).map (specWord block)) i = specWord block i := by
  have hrec := Fips180.schedule.eq_def (Fips180.messageWord block) i
  rw [if_neg (by omega)] at hrec
  unfold scheduleWord
  simp (disch := omega) only [getD_map_range]
  apply UInt32.toBitVec_inj.1
  rw [toBitVec_specWord, hrec, Fips180.smallSigma0, Fips180.smallSigma1]
  simp only [UInt32.toBitVec_add, UInt32.toBitVec_xor, toBitVec_rotR _ 7 (by simp),
    toBitVec_rotR _ 18 (by simp), toBitVec_rotR _ 17 (by simp), toBitVec_rotR _ 19 (by simp),
    UInt32.toBitVec_shiftRight, toBitVec_specWord, UInt32.reduceToNat]
  rw [shiftRight_three, shiftRight_ten]
  ac_rfl

/-- **The schedule is filled in the order of its recursion.** -/
theorem schedule_eq {block : Bytes} (h : block.length = 64) {n : ℕ} (hn : 16 ≤ n) :
    schedule block n = (List.range n).map (specWord block) := by
  induction n, hn using Nat.le_induction with
  | base =>
    refine List.map_congr_left fun t ht => ?_
    rw [List.mem_range] at ht
    rw [word_eq (by omega), specWord, Fips180.schedule, if_pos ht]
  | succ n hn ih =>
    have hrange : List.range' 16 (n + 1 - 16) = List.range' 16 (n - 16) ++ [n] := by
      rw [Nat.sub_add_comm hn, List.range'_concat, one_mul, Nat.add_sub_cancel' hn]
    rw [schedule, hrange, List.foldl_append, ← schedule, ih, List.foldl_cons, List.foldl_nil,
      scheduleWord_eq block hn, List.range_succ, List.map_append, List.map_singleton]

theorem round_toState (v : HashWords) (kw : UInt32 × UInt32) :
    (round v kw).toState = Fips180.step kw.1.toBitVec kw.2.toBitVec v.toState := by
  simp only [round, HashWords.toState, Fips180.step, Fips180.bigSigma0, Fips180.bigSigma1,
    Fips180.ch, Fips180.maj, UInt32.toBitVec_add, UInt32.toBitVec_xor, UInt32.toBitVec_and,
    UInt32.toBitVec_not, toBitVec_rotR _ 2 (by simp), toBitVec_rotR _ 13 (by simp),
    toBitVec_rotR _ 22 (by simp), toBitVec_rotR _ 6 (by simp), toBitVec_rotR _ 11 (by simp),
    toBitVec_rotR _ 25 (by simp), UInt32.reduceToNat]

/-- **A block is compressed as the standard does it.** -/
theorem compress_toState (h : HashWords) {block : Bytes} (hblock : block.length = 64) :
    (compress h block).toState = Fips180.compress h.toState block := by
  have hrounds : ((k.zip (schedule block 64)).foldl round h).toState =
      (List.range 64).foldl (fun v t => Fips180.step (Fips180.roundConstant t)
        (Fips180.schedule (Fips180.messageWord block) t) v) h.toState := by
    rw [k_eq, schedule_eq hblock (by omega), List.zip_map', List.foldl_map]
    generalize Fips180.roundConstant = c
    have hround : ∀ v t, Fips180.step (c t) (Fips180.schedule (Fips180.messageWord block) t)
        v.toState = (round v (.ofBitVec (c t), specWord block t)).toState :=
      fun v t => (round_toState v (.ofBitVec (c t), specWord block t)).symm
    exact (List.foldl_hom HashWords.toState hround).symm
  rw [Fips180.compress, ← hrounds]
  simp only [compress, HashWords.toState, Fips180.State.add, UInt32.toBitVec_add, BitVec.add_comm]

/-! ## Updates -/

/-- What a hasher holds after a turn of the copying and the rest of the data is what it held before
    all of the data. -/
theorem copy_absorb (s : Sha256) (data : Bytes) :
    absorb 64 compress (s.copy data).h ((s.copy data).stateBuf ++ data.drop (s.take data)) =
      absorb 64 compress s.h (s.stateBuf ++ data) := by
  have hsplit : s.stateBuf ++ data =
      s.stateBuf ++ data.take (s.take data) ++ data.drop (s.take data) := by
    rw [List.append_assoc, List.take_append_drop]
  rw [hsplit, copy]
  split
  · rename_i hfull
    have hle : 64 ≤ (s.stateBuf ++ data.take (s.take data) ++ data.drop (s.take data)).length := by
      rw [List.length_append, hfull]
      exact Nat.le_add_right _ _
    rw [absorb_of_le (by omega) hle, List.take_left' hfull, List.drop_left' hfull]
    rfl
  · rfl

/-- **What a hasher holds after data**, and that the loop does not count. -/
theorem updateNoCount_held (s : Sha256) (data : Bytes) :
    ((s.updateNoCount data).h, (s.updateNoCount data).stateBuf) =
        absorb 64 compress s.h (s.stateBuf ++ data) ∧
      (s.updateNoCount data).bitLen = s.bitLen := by
  have hcopy : ∀ s data, (copy s data).bitLen = s.bitLen := by
    intro s data
    unfold copy
    dsimp only
    split
    · rfl
    · rfl
  induction s, data using updateNoCount.induct with
  | case1 s =>
    rw [updateNoCount, if_pos rfl, List.append_nil, absorb_of_lt s.stateBuf_lt]
    exact ⟨rfl, rfl⟩
  | case2 s data hdata ih =>
    obtain ⟨hheld, hcount⟩ := ih
    rw [updateNoCount, if_neg hdata, hheld, hcount, copy_absorb, hcopy]
    exact ⟨rfl, rfl⟩

/-- What the hasher holds after bytes that are fed one at a time. -/
theorem feed_held (s : Sha256) (data : Bytes) :
    ((data.foldl (fun s b => s.updateNoCount [b]) s).h,
        (data.foldl (fun s b => s.updateNoCount [b]) s).stateBuf) =
      absorb 64 compress s.h (s.stateBuf ++ data) := by
  induction data generalizing s with
  | nil => rw [List.foldl_nil, List.append_nil, absorb_of_lt s.stateBuf_lt]
  | cons b data ih =>
    have hb := (s.updateNoCount_held [b]).1
    rw [List.foldl_cons, ih, List.append_cons, absorb_append s.h, ← hb]

/-- The hasher has taken a message, and counted it. -/
structure Holds (s : Sha256) (message : Bytes) : Prop where
  held : (s.h, s.stateBuf) = absorb 64 compress reset.h message
  bitLen : s.bitLen = UInt64.ofNat (message.length * 8)

theorem holds_reset : reset.Holds [] where
  held := by
    rw [absorb_of_lt (by simp)]
    rfl
  bitLen := rfl

variable {s : Sha256} {message : Bytes}

theorem Holds.update (h : s.Holds message) (data : Bytes) :
    (s.update data).Holds (message ++ data) := by
  obtain ⟨hheld, hcount⟩ := updateNoCount_held
    { s with bitLen := s.bitLen + UInt64.ofNat (data.length * 8) } data
  constructor
  · rw [Sha256.update, hheld, absorb_append reset.h, ← h.held]
  · rw [Sha256.update, hcount, h.bitLen, List.length_append, Nat.add_mul, UInt64.ofNat_add]

theorem Holds.updates (h : s.Holds message) (pieces : List Bytes) :
    (pieces.foldl Sha256.update s).Holds (message ++ pieces.flatten) := by
  induction pieces generalizing s message with
  | nil =>
    rw [List.flatten_nil, List.append_nil]
    exact h
  | cons data pieces ih =>
    rw [List.foldl_cons, List.flatten_cons, ← List.append_assoc]
    exact ih (h.update data)

/-- Where the block of a hasher stands. -/
theorem Holds.length_stateBuf (h : s.Holds message) : s.stateBuf.length = message.length % 64 := by
  have hrest : (absorb 64 compress reset.h message).2.length = message.length % 64 :=
    length_absorb_snd (by omega) reset.h message
  rw [← h.held] at hrest
  exact hrest

/-! ## Padding -/

/-- **The loop of the padding ends**: after as many turns as there are places up to the length. -/
theorem padZeros_eq (s : Sha256) :
    s.padZeros = (fun s => s.updateNoCount [0])^[(120 - s.stateBuf.length) % 64] s ∧
      s.padZeros.stateBuf.length = 56 := by
  induction s using padZeros.induct with
  | case1 s h =>
    rw [padZeros, if_pos h]
    constructor
    · rw [h]
      rfl
    · exact h
  | case2 s h ih =>
    obtain ⟨hloop, hend⟩ := ih
    have hlt := s.stateBuf_lt
    have hturn : (120 - s.stateBuf.length) % 64 =
        (120 - (s.updateNoCount [0]).stateBuf.length) % 64 + 1 := by
      rw [length_updateNoCount_singleton]
      omega
    rw [padZeros, if_neg h, hturn, Function.iterate_succ_apply]
    exact ⟨hloop, hend⟩

theorem foldl_replicate_zero (n : ℕ) (s : Sha256) :
    (List.replicate n (0 : UInt8)).foldl (fun s b => s.updateNoCount [b]) s =
      (fun s => s.updateNoCount [0])^[n] s := by
  induction n generalizing s with
  | zero => rfl
  | succ n ih => rw [List.replicate_succ, List.foldl_cons, ih, Function.iterate_succ_apply]

/-- The length field of the padding: the padding byte is counted and taken back. -/
theorem Holds.bitLen_uncount (h : s.Holds message) :
    (s.update [0x80]).uncount.bitLen = UInt64.ofNat (8 * message.length) := by
  have hlen : (message ++ [0x80]).length * 8 = 8 * message.length + 8 := by
    rw [List.length_append, List.length_singleton]
    omega
  rw [uncount, (h.update [0x80]).bitLen, hlen, UInt64.ofNat_add]
  exact UInt64.add_sub_cancel _ _

theorem padZeros_bitLen (s : Sha256) : s.padZeros.bitLen = s.bitLen := by
  induction s using padZeros.induct with
  | case1 s h => rw [padZeros, if_pos h]
  | case2 s h ih => rw [padZeros, if_neg h, ih, (updateNoCount_held s [0]).2]

/-- The padding has the standard's zeros and length. -/
theorem Holds.padding (h : s.Holds message) :
    beBytes 8 (s.update [0x80]).uncount.padZeros.bitLen.toNat = beBytes 8 (8 * message.length) ∧
      (s.update [0x80]).uncount.padZeros =
        (List.replicate (Fips180.zeroBytes message.length) 0).foldl
          (fun s b => s.updateNoCount [b]) (s.update [0x80]).uncount := by
  have hloop := (padZeros_eq (s.update [0x80]).uncount).1
  have hbuf : (s.update [0x80]).uncount.stateBuf.length = (message.length + 1) % 64 :=
    (h.update [0x80]).length_stateBuf.trans (by rw [List.length_append, List.length_singleton])
  have hzeros : (120 - (message.length + 1) % 64) % 64 = Fips180.zeroBytes message.length := by
    rw [Fips180.zeroBytes_eq]
    omega
  constructor
  · rw [padZeros_bitLen, h.bitLen_uncount, UInt64.toNat_ofNat']
    exact beBytes_mod (v := 8) le_rfl _
  · rw [hloop, hbuf, hzeros, foldl_replicate_zero]

/-- **The digest of a message is the standard's.** -/
theorem Holds.final (h : s.Holds message) : s.final = Fips180.sha256 message := by
  obtain ⟨hlength, hzeros⟩ := h.padding
  have hfed := feed_held (s.update [0x80]).uncount
    (List.replicate (Fips180.zeroBytes message.length) 0 ++ beBytes 8 (8 * message.length))
  have hpadded : ((s.update [0x80]).uncount.h, (s.update [0x80]).uncount.stateBuf) =
      absorb 64 compress reset.h (message ++ [0x80]) := (h.update [0x80]).held
  have htaken : absorb 64 compress (s.update [0x80]).uncount.h ((s.update [0x80]).uncount.stateBuf ++
      (List.replicate (Fips180.zeroBytes message.length) 0 ++ beBytes 8 (8 * message.length))) =
      absorb 64 compress reset.h (Fips180.pad message) := by
    rw [Fips180.pad, List.append_assoc, absorb_append reset.h, ← hpadded]
  have hspec : (absorb 64 compress reset.h (Fips180.pad message)).1.toState =
      (blocks 64 (Fips180.pad message)).foldl Fips180.compress Fips180.initial := by
    rw [← toState_reset, ← absorb_fst]
    exact absorb_hom HashWords.toState (fun h b hb => compress_toState h hb) _ _
  rw [htaken] at hfed
  rw [Sha256.final, hlength, hzeros, ← List.foldl_append, Fips180.sha256, ← hspec, ← hfed]
  rfl

/-- A message is hashed in any pieces. -/
theorem final_updates (pieces : List Bytes) :
    (pieces.foldl Sha256.update reset).final = Fips180.sha256 pieces.flatten :=
  (holds_reset.updates pieces).final

theorem hash_eq (data : Bytes) : hash data = Fips180.sha256 data := (holds_reset.update data).final

end Sha256

/-! ## HMAC -/

/-- The key block, XORed with a byte that is repeated. -/
theorem zipWith_replicate (key : Bytes) (b : UInt8) (n : ℕ) (h : key.length = n) :
    List.zipWith (· ^^^ ·) key (List.replicate n b) = key.map (· ^^^ b) := by
  subst h
  induction key with
  | nil => rfl
  | cons c key ih =>
    rw [List.length_cons, List.replicate_succ, List.zipWith_cons_cons, ih, List.map_cons]

theorem length_hash (data : Bytes) : (Sha256.hash data).length = 32 := by
  have hwords : ∀ h : HashWords, h.toBytes.length = 32 := by
    intro h
    simp only [HashWords.toBytes, List.flatMap_cons, List.flatMap_nil, List.length_append,
      length_beBytes, List.length_nil]
  exact hwords _

theorem hmacSha256_eq (key message : Bytes) :
    hmacSha256 key message = Fips180.hmac Fips180.sha256 64 key message := by
  have hkey : ∀ key : Bytes, key.length ≤ 64 →
      (key ++ List.replicate (64 - key.length) 0).length = 64 := by
    intro key hle
    rw [List.length_append, List.length_replicate, Nat.add_sub_cancel' hle]
  have hshort : (if 64 < key.length then Sha256.hash key else key).length ≤ 64 := by
    split
    · rw [length_hash]
      decide
    · omega
  simp only [hmacSha256, Fips180.hmac, ← Sha256.hash_eq]
  rw [zipWith_replicate _ _ 64 (hkey _ hshort), zipWith_replicate _ _ 64 (hkey _ hshort)]

/-- **The built-in HMAC is HMAC-SHA-256.**  Every message is hashed to the standard's digest, in
    whatever pieces it comes; the loop of the padding ends, and the length field is the number of
    bits of the message. -/
theorem hmac_is_hmac_sha256 :
    (∀ key message, hmacSha256 key message = Fips180.hmac Fips180.sha256 64 key message) ∧
    (∀ pieces : List Bytes,
      (pieces.foldl Sha256.update Sha256.reset).final = Fips180.sha256 pieces.flatten) ∧
    (∀ s : Sha256, ∃ turns < 64, s.padZeros = (fun s => s.updateNoCount [0])^[turns] s ∧
      s.padZeros.stateBuf.length = 56) ∧
    ∀ pieces : List Bytes, pieces.flatten.length < 2 ^ 61 →
      ((pieces.foldl Sha256.update Sha256.reset).update [0x80]).uncount.bitLen.toNat =
        8 * pieces.flatten.length := by
  refine ⟨hmacSha256_eq, Sha256.final_updates, ?_, ?_⟩
  · intro s
    obtain ⟨hloop, hend⟩ := s.padZeros_eq
    exact ⟨_, Nat.mod_lt _ (by omega), hloop, hend⟩
  · intro pieces hlt
    have hholds := Sha256.holds_reset.updates pieces
    rw [hholds.bitLen_uncount, List.nil_append, UInt64.toNat_ofNat']
    exact Nat.mod_eq_of_lt (by omega)

theorem hmac_is_hmac_sha256_two_pieces :
    (([ascii "a", ascii "bc"].foldl Sha256.update Sha256.reset).update [0x80]).uncount.bitLen.toNat =
      24 :=
  hmac_is_hmac_sha256.2.2.2 [ascii "a", ascii "bc"] (by decide)

end TrtcAsr
