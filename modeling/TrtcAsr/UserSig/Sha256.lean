/-
  SHA-256 and HMAC-SHA-256 (usersig.cc, `Sha256` and `HmacSha256`).

  A hasher keeps the filled part of its block; data is copied into the block up to its end, which
  is then compressed, and the copying goes on with the rest of the data.
-/
import TrtcAsr.Lib.Bytes

namespace TrtcAsr

/-- `h_`, and the working variables of a round. -/
structure HashWords where
  a : UInt32
  b : UInt32
  c : UInt32
  d : UInt32
  e : UInt32
  f : UInt32
  g : UInt32
  h : UInt32
  deriving DecidableEq, Repr

/-- `out` of `Final`. -/
def HashWords.toBytes (h : HashWords) : Bytes :=
  [h.a, h.b, h.c, h.d, h.e, h.f, h.g, h.h].flatMap fun x => beBytes 4 x.toNat

/-- `class Sha256`: `h_`, the filled part of `state_buf_`, and `bit_len_`. -/
structure Sha256 where
  h : HashWords
  stateBuf : Bytes
  bitLen : UInt64
  stateBuf_lt : stateBuf.length < 64
  deriving DecidableEq, Repr

namespace Sha256

/-- `Reset`. -/
def reset : Sha256 where
  h := ⟨0x6a09e667, 0xbb67ae85, 0x3c6ef372, 0xa54ff53a, 0x510e527f, 0x9b05688c, 0x1f83d9ab,
    0x5be0cd19⟩
  stateBuf := []
  bitLen := 0
  stateBuf_lt := by decide

/-! ## Compression -/

def k : List UInt32 :=
  [0x428a2f98, 0x71374491, 0xb5c0fbcf, 0xe9b5dba5, 0x3956c25b, 0x59f111f1,
    0x923f82a4, 0xab1c5ed5, 0xd807aa98, 0x12835b01, 0x243185be, 0x550c7dc3,
    0x72be5d74, 0x80deb1fe, 0x9bdc06a7, 0xc19bf174, 0xe49b69c1, 0xefbe4786,
    0x0fc19dc6, 0x240ca1cc, 0x2de92c6f, 0x4a7484aa, 0x5cb0a9dc, 0x76f988da,
    0x983e5152, 0xa831c66d, 0xb00327c8, 0xbf597fc7, 0xc6e00bf3, 0xd5a79147,
    0x06ca6351, 0x14292967, 0x27b70a85, 0x2e1b2138, 0x4d2c6dfc, 0x53380d13,
    0x650a7354, 0x766a0abb, 0x81c2c92e, 0x92722c85, 0xa2bfe8a1, 0xa81a664b,
    0xc24b8b70, 0xc76c51a3, 0xd192e819, 0xd6990624, 0xf40e3585, 0x106aa070,
    0x19a4c116, 0x1e376c08, 0x2748774c, 0x34b0bcb5, 0x391c0cb3, 0x4ed8aa4a,
    0x5b9cca4f, 0x682e6ff3, 0x748f82ee, 0x78a5636f, 0x84c87814, 0x8cc70208,
    0x90befffa, 0xa4506ceb, 0xbef9a3f7, 0xc67178f2]

def rotR (x n : UInt32) : UInt32 := (x >>> n) ||| (x <<< (32 - n))

/-- The word at byte `4 * i` of a block. -/
def word (block : Bytes) (i : ℕ) : UInt32 :=
  let b := fun j => (block.getD (4 * i + j) 0).toUInt32
  (b 0 <<< 24) ||| (b 1 <<< 16) ||| (b 2 <<< 8) ||| b 3

/-- `w[i]`, from the words before it. -/
def scheduleWord (w : List UInt32) (i : ℕ) : UInt32 :=
  let s0 := rotR (w.getD (i - 15) 0) 7 ^^^ rotR (w.getD (i - 15) 0) 18 ^^^
    (w.getD (i - 15) 0 >>> 3)
  let s1 := rotR (w.getD (i - 2) 0) 17 ^^^ rotR (w.getD (i - 2) 0) 19 ^^^ (w.getD (i - 2) 0 >>> 10)
  w.getD (i - 16) 0 + s0 + w.getD (i - 7) 0 + s1

/-- The message schedule, filled up to position `n`. -/
def schedule (block : Bytes) (n : ℕ) : List UInt32 :=
  (List.range' 16 (n - 16)).foldl (fun w i => w ++ [scheduleWord w i])
    ((List.range 16).map (word block))

/-- One round, with the constant and the word of the round. -/
def round (v : HashWords) (kw : UInt32 × UInt32) : HashWords :=
  let s1 := rotR v.e 6 ^^^ rotR v.e 11 ^^^ rotR v.e 25
  let ch := (v.e &&& v.f) ^^^ (~~~v.e &&& v.g)
  let temp1 := v.h + s1 + ch + kw.1 + kw.2
  let s0 := rotR v.a 2 ^^^ rotR v.a 13 ^^^ rotR v.a 22
  let maj := (v.a &&& v.b) ^^^ (v.a &&& v.c) ^^^ (v.b &&& v.c)
  let temp2 := s0 + maj
  ⟨temp1 + temp2, v.a, v.b, v.c, v.d + temp1, v.e, v.f, v.g⟩

def compress (h : HashWords) (block : Bytes) : HashWords :=
  let v := (k.zip (schedule block 64)).foldl round h
  ⟨h.a + v.a, h.b + v.b, h.c + v.c, h.d + v.d, h.e + v.e, h.f + v.f, h.g + v.g, h.h + v.h⟩

/-! ## Updates -/

/-- How much of the data is copied into the block. -/
def take (s : Sha256) (data : Bytes) : ℕ := min data.length (64 - s.stateBuf.length)

/-- One turn of the loop of `UpdateNoCount`. -/
def copy (s : Sha256) (data : Bytes) : Sha256 :=
  let buf := s.stateBuf ++ data.take (s.take data)
  if hfull : buf.length = 64 then
    { s with h := compress s.h buf, stateBuf := [], stateBuf_lt := by decide }
  else
    { s with
      stateBuf := buf
      stateBuf_lt := by
        have hlt := s.stateBuf_lt
        have hlen : buf.length = s.stateBuf.length + min (s.take data) data.length := by
          rw [List.length_append, List.length_take]
        unfold take at hlen
        omega }

theorem take_pos (s : Sha256) {data : Bytes} (h : data ≠ []) : 0 < s.take data := by
  have hlt := s.stateBuf_lt
  have hdata := List.length_pos_iff.2 h
  unfold take
  omega

def updateNoCount (s : Sha256) (data : Bytes) : Sha256 :=
  if data = [] then s
  else (s.copy data).updateNoCount (data.drop (s.take data))
termination_by data.length
decreasing_by
  rename_i hdata
  have htake := s.take_pos hdata
  have hlen := List.length_pos_iff.2 hdata
  rw [List.length_drop]
  omega

/-- `Update`: the loop of `UpdateNoCount`, after the data is counted. -/
def update (s : Sha256) (data : Bytes) : Sha256 :=
  { s with bitLen := s.bitLen + UInt64.ofNat (data.length * 8) }.updateNoCount data

theorem updateNoCount_singleton (s : Sha256) (b : UInt8) :
    s.updateNoCount [b] = s.copy [b] := by
  have htake : s.take [b] = 1 := by
    have hlt := s.stateBuf_lt
    rw [take, List.length_singleton]
    omega
  rw [updateNoCount, if_neg (List.cons_ne_nil b []), htake, List.drop_one, List.tail_cons,
    updateNoCount, if_pos rfl]

/-- A byte goes to the next place of the block. -/
theorem length_updateNoCount_singleton (s : Sha256) (b : UInt8) :
    (s.updateNoCount [b]).stateBuf.length = (s.stateBuf.length + 1) % 64 := by
  have hlt := s.stateBuf_lt
  have htake : [b].take (s.take [b]) = [b] :=
    List.take_of_length_le (s.take_pos (List.cons_ne_nil b []))
  have hlen : (s.stateBuf ++ [b].take (s.take [b])).length = s.stateBuf.length + 1 := by
    rw [htake, List.length_append, List.length_singleton]
  rw [updateNoCount_singleton, copy]
  split
  · rename_i hfull
    rw [List.length_nil]
    omega
  · rename_i hfull
    dsimp only
    omega

/-! ## The digest -/

/-- `while (buf_len_ != 56)`: one zero byte after the other. -/
def padZeros (s : Sha256) : Sha256 :=
  if s.stateBuf.length = 56 then s else (s.updateNoCount [0]).padZeros
termination_by (120 - s.stateBuf.length) % 64
decreasing_by
  have hlt := s.stateBuf_lt
  rw [length_updateNoCount_singleton]
  omega

/-- `bit_len_` without the padding byte, once that has gone through `Update`. -/
def uncount (s : Sha256) : Sha256 := { s with bitLen := s.bitLen - 8 }

/-- `Final`. -/
def final (s : Sha256) : Bytes :=
  let s := (s.update [0x80]).uncount.padZeros
  let lenBytes := beBytes 8 s.bitLen.toNat
  (lenBytes.foldl (fun s b => s.updateNoCount [b]) s).h.toBytes

def hash (data : Bytes) : Bytes := (reset.update data).final

end Sha256

/-- `HmacSha256(key, message)`. -/
def hmacSha256 (key message : Bytes) : Bytes :=
  let key := if key.length > 64 then Sha256.hash key else key
  let keyBlock := key ++ List.replicate (64 - key.length) 0
  let innerHash := Sha256.hash (keyBlock.map (· ^^^ 0x36) ++ message)
  Sha256.hash (keyBlock.map (· ^^^ 0x5c) ++ innerHash)

end TrtcAsr
