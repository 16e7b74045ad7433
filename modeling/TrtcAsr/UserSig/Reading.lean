/-
  What the server reads from a ticket (usersig.cc).

  zlib's `inflate` is a parameter, as `compress2` is.  The document is written over bytes
  and read over code points: `userSigText` is the text that it encodes.

  * `jsonEscape_utf8`, `spells_escape`: the escaped bytes of a text encode a way to write
    its characters inside a JSON string;
  * `utf8_userSigText`: the document is the encoding of an object written member by member;
  * `ticket_reads_back`: a ticket is read as the values it was made for.
-/
import TrtcAsr.Lib.JsonText
import TrtcAsr.UserSig.Base64Url

namespace TrtcAsr

/-- The value of a ticket, as a server reads it. -/
def readTicket (inflate : Bytes → Option Bytes) (ticket : Bytes) : Option JsonText.Value :=
  match base64UrlDecode ticket with
  | .ok z => (inflate z).bind fun doc => (utf8Decode doc).bind JsonText.parse
  | .error _ => none

/-! ## Escaping -/

/-- The escaped text of a character. -/
def escapeText (c : Char) : List Char :=
  if c.toNat < 0x80 then chars (jsonEscapeChar (UInt8.ofNat c.toNat)) else [c]

theorem jsonEscapeChar_high : ∀ b : UInt8, 0x80 ≤ b → jsonEscapeChar b = [b] :=
  forall_byte (by decide +kernel)

theorem jsonEscapeChar_ascii : ∀ b : UInt8, b < 0x80 → ∀ b' ∈ jsonEscapeChar b, b' < 0x80 :=
  forall_byte (by decide +kernel)

theorem utf8_escapeText (c : Char) :
    utf8 (escapeText c) = jsonEscape (String.utf8EncodeChar c) := by
  unfold escapeText
  split
  · rename_i hc
    have hb : UInt8.ofNat c.toNat < 0x80 := by
      rw [UInt8.lt_iff_toNat_lt, UInt8.toNat_ofNat', Nat.mod_eq_of_lt (by omega)]
      exact hc
    rw [utf8_chars (jsonEscapeChar_ascii _ hb), utf8EncodeChar_ascii hc, jsonEscape,
      List.flatMap_singleton]
  · rename_i hc
    have hhigh := fun b hb => jsonEscapeChar_high b (le_of_mem_utf8EncodeChar (Nat.le_of_not_lt hc) hb)
    rw [utf8_cons, utf8_nil, List.append_nil, jsonEscape, List.flatMap_def,
      List.map_congr_left hhigh]
    exact (List.flatMap_singleton' _).symm

theorem jsonEscape_utf8 (cs : List Char) :
    jsonEscape (utf8 cs) = utf8 (cs.flatMap escapeText) := by
  induction cs with
  | nil => rfl
  | cons c cs ih =>
    rw [utf8_cons, List.flatMap_cons, utf8_append, utf8_escapeText, ← ih]
    exact List.flatMap_append

theorem hexVal_hexDigit : ∀ i < 16, JsonText.hexVal (Char.ofNat (hexDigit i).toNat) = some i := by
  decide

theorem spells_jsonEscapeChar {b : UInt8} (hb : b < 0x80) :
    JsonText.Spells (chars (jsonEscapeChar b)) (Char.ofNat b.toNat) := by
  have hlt : b.toNat < 0x80 := hb
  have hof : (Char.ofNat b.toNat).toNat = b.toNat := toNat_charOfNat (.inl (by omega))
  unfold jsonEscapeChar
  split_ifs with hquote hback hn hr ht hctl
  · subst hquote
    exact JsonText.spells_letter rfl
  · subst hback
    exact JsonText.spells_letter rfl
  · subst hn
    exact JsonText.spells_letter rfl
  · subst hr
    exact JsonText.spells_letter rfl
  · subst ht
    exact JsonText.spells_letter rfl
  · have hhi : b.toNat / 16 < 16 := by omega
    have hlo : b.toNat % 16 < 16 := Nat.mod_lt _ (by simp)
    have h := JsonText.spells_hex (hexVal_hexDigit _ hhi) (hexVal_hexDigit _ hlo) hhi hlo
    rw [Nat.div_add_mod] at h
    exact h
  · refine JsonText.spells_plain ?_ ?_ ?_
    · intro h
      exact hquote (UInt8.toNat_inj.1 (hof.symm.trans (congrArg Char.toNat h)))
    · intro h
      exact hback (UInt8.toNat_inj.1 (hof.symm.trans (congrArg Char.toNat h)))
    · rw [hof]
      exact UInt8.le_iff_toNat_le.1 (UInt8.not_lt.1 hctl)

theorem spells_escape (c : Char) : JsonText.Spells (escapeText c) c := by
  unfold escapeText
  split
  · rename_i hc
    have hb : (UInt8.ofNat c.toNat).toNat = c.toNat := by
      rw [UInt8.toNat_ofNat', Nat.mod_eq_of_lt (by omega)]
    have hlt : UInt8.ofNat c.toNat < 0x80 := by
      rw [UInt8.lt_iff_toNat_lt, hb]
      exact hc
    have h := spells_jsonEscapeChar hlt
    rwa [hb, Char.ofNat_toNat] at h
  · rename_i hc
    refine JsonText.spells_plain ?_ ?_ (by omega)
    all_goals
      rintro rfl
      exact hc (by simp)

/-! ## The document -/

/-- A string member whose characters stand for themselves. -/
def plainMember (name s : List Char) : JsonText.Member :=
  ⟨name, '"' :: s ++ ['"'], .str s⟩

def intMember (name : List Char) (n : ℤ) : JsonText.Member :=
  ⟨name, chars (toDec n), .num n⟩

/-- A character that needs no escape in a JSON string. -/
def isPlain (c : Char) : Bool := c ≠ '"' && c ≠ '\\' && 0x20 ≤ c.toNat

theorem spells_of_isPlain {c : Char} (h : isPlain c) : JsonText.Spells [c] c := by
  simp only [isPlain, Bool.and_eq_true, decide_eq_true_eq] at h
  exact JsonText.spells_plain h.1.1 h.1.2 h.2

theorem plainMember_sound {name s : List Char} (hname : name.all isPlain)
    (hs : ∀ c ∈ s, isPlain c) : (plainMember name s).Sound := by
  refine ⟨fun c hc => spells_of_isPlain (List.all_eq_true.1 hname c hc), ?_⟩
  have h := JsonText.denotes_str fun c hc => spells_of_isPlain (hs c hc)
  rwa [List.flatMap_singleton'] at h

theorem intMember_sound {name : List Char} (hname : name.all isPlain) (n : ℤ) :
    (intMember name n).Sound :=
  ⟨fun c hc => spells_of_isPlain (List.all_eq_true.1 hname c hc), JsonText.denotes_num n⟩

/-- The members of the document of a ticket. -/
def userSigMembers (sdkAppId : ℤ) (key : Bytes) (id : List Char) (expire now : ℤ) :
    List JsonText.Member :=
  [plainMember "TLS.ver".toList "2.0".toList,
    ⟨"TLS.identifier".toList, '"' :: id.flatMap escapeText ++ ['"'], .str id⟩,
    intMember "TLS.sdkappid".toList sdkAppId,
    intMember "TLS.expire".toList expire,
    intMember "TLS.time".toList now,
    plainMember "TLS.sig".toList
      (chars (base64Encode (hmacSha256 key (userSigContent sdkAppId (utf8 id) expire now))))]

/-- The text that the document encodes. -/
def userSigText (sdkAppId : ℤ) (key : Bytes) (id : List Char) (expire now : ℤ) : List Char :=
  '\x7b' :: [','].intercalate ((userSigMembers sdkAppId key id expire now).map
    JsonText.Member.write) ++ '\x7d' :: ['\n']

section
variable (sdkAppId : ℤ) (key : Bytes) (id : List Char) (expire now : ℤ)

theorem utf8_userSigText :
    utf8 (userSigText sdkAppId key id expire now) =
      userSigDoc sdkAppId key (utf8 id) expire now := by
  have hdec : ∀ n, utf8 (chars (toDec n)) = toDec n :=
    fun n => utf8_chars fun b hb => lt_of_mem_toDec hb
  have hsig : ∀ data, utf8 (chars (base64Encode data)) = base64Encode data :=
    fun data => utf8_chars (forall_mem_base64Encode (by decide) data)
  simp only [userSigText, userSigMembers, plainMember, intMember, JsonText.Member.write, List.map,
    List.intercalate_cons_cons, List.intercalate_singleton, utf8_append, utf8_cons, utf8_toList,
    utf8_nil, ← jsonEscape_utf8, hdec, hsig, List.append_assoc, List.append_nil]
  delta userSigDoc
  simp only [List.append_assoc]
  rfl

theorem parse_userSigText :
    JsonText.parse (userSigText sdkAppId key id expire now) =
      some (.obj ((userSigMembers sdkAppId key id expire now).map fun m => (m.name, m.value))) := by
  refine JsonText.parse_obj (List.cons_ne_nil _ _) (fun m hm => ?_) (by decide)
  simp only [List.mem_cons, List.not_mem_nil, or_false] at hm
  rcases hm with rfl | rfl | rfl | rfl | rfl | rfl
  · exact plainMember_sound (by decide) (List.all_eq_true.1 (by decide))
  · have hname : "TLS.identifier".toList.all isPlain := by decide
    exact ⟨fun c hc => spells_of_isPlain (List.all_eq_true.1 hname c hc),
      JsonText.denotes_str fun c _ => spells_escape c⟩
  · exact intMember_sound (by decide) _
  · exact intMember_sound (by decide) _
  · exact intMember_sound (by decide) _
  · refine plainMember_sound (by decide) fun c hc => ?_
    obtain ⟨b, hb, rfl⟩ := List.mem_map.1 hc
    exact forall_mem_base64Encode (p := fun b => isPlain (Char.ofNat b.toNat) = true) (by decide)
      _ b hb

end

theorem genUserSigAt_eq {compress2 : Bytes → Except ℤ Bytes} {sdkAppId : ℤ} {key userId : Bytes}
    {expire now : ℤ} (hkey : key ≠ []) (huser : userId ≠ []) :
    genUserSigAt compress2 sdkAppId key userId expire now =
      (zlibCompress compress2 (userSigDoc sdkAppId key userId expire now)).map base64UrlEncode := by
  rw [genUserSigAt, rejectIf, if_neg hkey, rejectIf, if_neg huser]
  cases zlibCompress compress2 (userSigDoc sdkAppId key userId expire now) with
  | error e => rfl
  | ok out => rfl

/-- **A ticket is read as the values it was made for**, unless zlib does not compress its
    document. -/
theorem ticket_reads_back {compress2 : Bytes → Except ℤ Bytes} {inflate : Bytes → Option Bytes}
    (hinflate : ∀ data out, compress2 data = .ok out → inflate out = some data)
    (sdkAppId : ℤ) {key userId : Bytes} (hkey : key ≠ []) (huser : userId ≠ [])
    (hutf8 : ValidUtf8 userId) (expire now : ℤ) :
    (∃ ticket id, genUserSigAt compress2 sdkAppId key userId expire now = .ok ticket ∧
      utf8 id = userId ∧
      readTicket inflate ticket = some (.obj
        [("TLS.ver".toList, .str "2.0".toList),
          ("TLS.identifier".toList, .str id),
          ("TLS.sdkappid".toList, .num sdkAppId),
          ("TLS.expire".toList, .num expire),
          ("TLS.time".toList, .num now),
          ("TLS.sig".toList, .str (chars (base64Encode
            (hmacSha256 key (userSigContent sdkAppId userId expire now)))))]) ∧
      ∀ c ∈ ticket, isTicketChar c) ∨
    (∃ rc, compress2 (userSigDoc sdkAppId key userId expire now) = .error rc ∧
      genUserSigAt compress2 sdkAppId key userId expire now =
        invalidParam (ascii "zlib compress failed: " ++ toDec rc)) := by
  obtain ⟨id, rfl⟩ := hutf8
  rw [genUserSigAt_eq hkey huser]
  cases hz : compress2 (userSigDoc sdkAppId key (utf8 id) expire now) with
  | error rc =>
    refine .inr ⟨rc, rfl, ?_⟩
    rw [zlibCompress, hz]
    rfl
  | ok z =>
    refine .inl ⟨base64UrlEncode z, id, ?_, rfl, ?_, isTicketChar_encode z⟩
    · rw [zlibCompress, hz]
      rfl
    · rw [readTicket, base64UrlDecode_encode]
      simp only [hinflate _ _ hz, ← utf8_userSigText, utf8Decode_utf8, Option.bind_some,
        parse_userSigText]
      rfl

def sampleDoc : Bytes :=
  userSigDoc 1400000000 (ascii "key") (utf8 "u\"\né".toList) 86400 1700000000

/-- What zlib makes of `sampleDoc`. -/
def sampleDeflated : Bytes :=
  [0x78, 0x9C, 0xAB, 0x56, 0x0A, 0xF1, 0x09, 0xD6, 0x2B, 0x4B, 0x2D, 0x52, 0xB2, 0x52, 0x32, 0xD2,
    0x33, 0x50, 0xD2, 0x01, 0xF3, 0x33, 0x53, 0x52, 0xF3, 0x4A, 0x32, 0xD3, 0x32, 0xC1, 0xC2, 0xA5,
    0x31, 0x4A, 0x31, 0x79, 0x87, 0x57, 0x42, 0xA5, 0x8A, 0x53, 0xB2, 0x13, 0x0B, 0x0A, 0x32, 0x53,
    0x94, 0xAC, 0x0C, 0x4D, 0x0C, 0xA0, 0x00, 0x22, 0x93, 0x5A, 0x51, 0x90, 0x59, 0x94, 0xAA, 0x64,
    0x65, 0x61, 0x66, 0x02, 0x13, 0x2A, 0xC9, 0xCC, 0x05, 0x0A, 0x18, 0x9A, 0xA3, 0x2A, 0x2C, 0xCE,
    0x4C, 0x07, 0x1A, 0x5B, 0x15, 0x5A, 0xE0, 0xE7, 0x6E, 0xE6, 0x5B, 0xEC, 0xE4, 0x1F, 0x54, 0x14,
    0x1C, 0x9A, 0xEF, 0x61, 0x99, 0x99, 0x66, 0xE2, 0x96, 0x93, 0xED, 0x13, 0x18, 0xEC, 0x1B, 0x55,
    0x62, 0x61, 0x62, 0x60, 0x98, 0xEC, 0x16, 0x55, 0x59, 0x12, 0x56, 0x65, 0x50, 0x92, 0x6E, 0xAB,
    0x54, 0xCB, 0x05, 0x00, 0x76, 0x94, 0x31, 0xE3]

def sampleCompress2 (data : Bytes) : Except ℤ Bytes :=
  .ok (if data = sampleDoc then sampleDeflated else 0 :: data)

def sampleInflate (z : Bytes) : Option Bytes :=
  if z = sampleDeflated then some sampleDoc else z.tail?

theorem ticket_reads_back_sample :
    ∃ ticket id, genUserSigAt sampleCompress2 1400000000 (ascii "key") (utf8 "u\"\né".toList) 86400
        1700000000 = .ok ticket ∧
      utf8 id = utf8 "u\"\né".toList ∧
      readTicket sampleInflate ticket = some (.obj
        [("TLS.ver".toList, .str "2.0".toList),
          ("TLS.identifier".toList, .str id),
          ("TLS.sdkappid".toList, .num 1400000000),
          ("TLS.expire".toList, .num 86400),
          ("TLS.time".toList, .num 1700000000),
          ("TLS.sig".toList, .str (chars (base64Encode (hmacSha256 (ascii "key")
            (userSigContent 1400000000 (utf8 "u\"\né".toList) 86400 1700000000)))))]) ∧
      ∀ c ∈ ticket, isTicketChar c := by
  have hinflate : ∀ data out, sampleCompress2 data = .ok out → sampleInflate out = some data := by
    intro data out h
    obtain rfl := Except.ok.inj h
    by_cases hdoc : data = sampleDoc
    · rw [if_pos hdoc, sampleInflate, if_pos rfl, hdoc]
    · rw [if_neg hdoc, sampleInflate, if_neg (fun h => by cases (List.cons.inj h).1)]
      rfl
  refine (ticket_reads_back hinflate 1400000000 (by decide) (by decide) ⟨_, rfl⟩ 86400
    1700000000).resolve_right ?_
  rintro ⟨rc, h, -⟩
  cases h

end TrtcAsr
