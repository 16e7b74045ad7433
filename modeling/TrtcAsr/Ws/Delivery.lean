/-
  What the server reads of what the senders of a connection write.

  * `OnWire f s`: the bytes `s` are an encoding of the frame `f` by a sender.
  * `Uplink.underway`: the frame of a thread that waits for the mutex or holds it; `Uplink.Moves` is
    what a step does to these frames and to the finished sends.
  * `Uplink.read_whole`, `Uplink.read_intact`: the server reads the frames of the finished sends, if
    all of them are complete, and some of the frames in their order, if the stream is intact.
-/
import TrtcAsr.Ws.Send

namespace TrtcAsr

open Rfc6455 (Decodes decode decodeAll)

/-! ## Frames on the wire -/

/-- The bytes are an encoding of the frame, whose payload is one that memory holds. -/
structure OnWire (f : WsFrame) (s : Bytes) : Prop where
  opcode_lt : f.opcode < 16
  fin : f.fin = true
  size : f.payload.length < 2 ^ 64
  encoded : ∃ key : MaskKey, s = encodeWsFrame f.opcode f.payload (some key)

namespace OnWire

variable {f : WsFrame} {s p : Bytes}

theorem encode_eq (h : OnWire f s) : ∃ key : Bytes, key.length = 4 ∧
    s = Rfc6455.encode f.opcode (some key) f.payload := by
  obtain ⟨key, rfl⟩ := h.encoded
  exact ⟨key.toList, key.toArray.length_toList.trans key.size_toArray, encodeWsFrame_eq h.opcode_lt _ _⟩

theorem decode_append (h : OnWire f s) (t : Bytes) : decode (s ++ t) = some (f, t) := by
  obtain ⟨key, hkey, rfl⟩ := h.encode_eq
  rw [Rfc6455.decode_encode h.opcode_lt (by simpa using hkey) h.size]
  obtain ⟨opcode, payload, fin⟩ := f
  obtain rfl : fin = true := h.fin
  rfl

theorem truncated (h : OnWire f s) (hp : p <+: s) (hne : p ≠ s) : decode p = none := by
  obtain ⟨key, hkey, rfl⟩ := h.encode_eq
  exact Rfc6455.decode_truncated h.opcode_lt (by simpa using hkey) h.size hp hne

end OnWire

/-- The frame of a send. -/
def Sent.read (x : Sent) : Option WsFrame := (decode x.frame).map Prod.fst

theorem Sent.read_of_onWire {x : Sent} {f : WsFrame} (h : OnWire f x.frame) : x.read = some f := by
  have hd := h.decode_append []
  rw [List.append_nil] at hd
  unfold read
  rw [hd]
  rfl

/-- The send is of a frame. -/
def Sent.Framed (x : Sent) : Prop := ∃ f, OnWire f x.frame

/-- Complete sends, and bytes that are no frame behind them. -/
theorem decodeAll_sends {l : List Sent} {r : Bytes} (hl : ∀ x ∈ l, x.Framed ∧ x.accepted = x.frame)
    (hr : decode r = none) : decodeAll (l.flatMap Sent.accepted ++ r) = l.filterMap Sent.read := by
  refine Decodes.all (r := r) ?_ hr
  induction l with
  | nil => exact .nil r
  | cons x l ih =>
    obtain ⟨⟨⟨f, hf⟩, hx⟩, hl⟩ := List.forall_mem_cons.1 hl
    rw [List.flatMap_cons, List.filterMap_cons_some (Sent.read_of_onWire hf), hx, List.append_assoc]
    exact .cons (hf.decode_append _) (ih hl)

def SendKind.isPong : SendKind → Bool
  | pong _ => true
  | _ => false

namespace Uplink

/-! ## Who has a frame underway -/

/-- The thread that is writing is the one that holds the mutex. -/
def Held (s : Uplink) : Prop := ∀ i, s.pc i = .writing ↔ ∃ h, s.holder = some h ∧ h.tid = i

/-- The frame of a thread that waits for the mutex or holds it. -/
def underway (s : Uplink) (i : ℕ) : Option Bytes :=
  match s.pc i with
  | .idle => none
  | .waiting _ frame => some frame
  | .writing => s.holder.map Holder.frame

/-- What a step of thread `i` does to the frames underway and to the finished sends. -/
inductive Moves (s : Uplink) (i : ℕ) : UplinkAct → Uplink → List (ℕ × Bool) → Prop where
  | begins {kind payload key s'} (hidle : s.underway i = none)
    (hnext : s'.underway i = some (encodeWsFrame kind.opcode payload (some key)))
    (hothers : ∀ j ≠ i, s'.underway j = s.underway j) (hlog : s'.log = s.log) :
    Moves s i (.send kind payload key) s' []
  | goes {act s'} (hact : ∀ kind payload key, act ≠ .send kind payload key)
    (hsame : ∀ j, s'.underway j = s.underway j) (hlog : s'.log = s.log) : Moves s i act s' []
  | ends {t s' x ok} (hlast : s.underway i = some x.frame) (hnext : s'.underway i = none)
    (hothers : ∀ j ≠ i, s'.underway j = s.underway j) (hlog : s'.log = s.log ++ [x])
    (hok : ok = true → x.accepted = x.frame) : Moves s i (.pass t) s' [(i, ok)]

variable {s s' : Uplink} {i : ℕ} {act : UplinkAct} {es : List (ℕ × Bool)}

theorem underway_eq_none : s.underway i = none ↔
    s.pc i = .idle ∨ s.pc i = .writing ∧ s.holder = none := by
  unfold underway
  cases s.pc i with
  | idle => simp
  | waiting kind frame => simp
  | writing => simp

theorem step_moves (hh : s.Held) (h : lts.step s (i, act) = some (s', es)) :
    s'.Held ∧ s.Moves i act s' es := by
  cases act with
  | send kind payload key =>
    simp only [lts, step] at h
    split at h
    · rename_i hidle
      cases h
      refine ⟨fun j => ?_, .begins ?_ ?_ (fun j hj => ?_) rfl⟩
      · show Function.update s.pc i _ j = .writing ↔ ∃ h, s.holder = some h ∧ h.tid = j
        by_cases hj : j = i
        · subst hj
          rw [Function.update_self]
          refine iff_of_false (by simp) fun hheld => ?_
          rw [(hh j).2 hheld] at hidle
          cases hidle
        · rw [Function.update_of_ne hj]
          exact hh j
      · exact underway_eq_none.2 (.inl hidle)
      · simp only [underway, Function.update_self]
      · simp only [underway, Function.update_of_ne hj]
    · cases h
  | lock now after =>
    simp only [lts, step] at h
    split at h
    · rename_i kind frame hpc hnone
      cases h
      have hno : ∀ j, s.pc j ≠ .writing := by
        intro j hj
        obtain ⟨k, hk, -⟩ := (hh j).1 hj
        rw [hnone] at hk
        cases hk
      refine ⟨fun j => ?_, .goes (by simp) (fun j => ?_) rfl⟩
      · show Function.update s.pc i .writing j = .writing ↔ _
        by_cases hj : j = i
        · subst hj
          simp
        · rw [Function.update_of_ne hj]
          exact iff_of_false (hno j) (by simp [Ne.symm hj])
      · by_cases hj : j = i
        · subst hj
          simp only [underway, Function.update_self, hpc, Option.map_some]
        · simp only [underway, Function.update_of_ne hj]
          cases hpcj : s.pc j with
          | writing => exact absurd hpcj (hno j)
          | idle => rfl
          | waiting kind frame => rfl
    · cases h
  | pass t =>
    simp only [lts, step] at h
    split at h
    · cases h
    rename_i hold hhold
    split at h
    · cases h
    rename_i htid
    obtain rfl : hold.tid = i := not_not.1 htid
    have hwriting : s.pc hold.tid = .writing := (hh _).2 ⟨hold, hhold, rfl⟩
    -- the frame of the holder stays, whatever is left of it
    have again : ∀ (c : WsClient) (w : WriteAll),
        ({ s with client := c, holder := some { hold with write := w } } : Uplink).Held ∧
          s.Moves hold.tid (.pass t)
            { s with client := c, holder := some { hold with write := w } } [] := by
      intro c w
      refine ⟨fun j => ?_, .goes (by simp) (fun j => ?_) rfl⟩
      · rw [hh j, hhold]
        simp
      · unfold underway
        cases s.pc j with
        | idle => rfl
        | waiting kind frame => rfl
        | writing => rw [hhold]; rfl
    have done : ∀ (c : WsClient) (rest : Bytes) (ok : Bool), (ok = true → rest = []) →
        (s.release c hold rest).Held ∧
          s.Moves hold.tid (.pass t) (s.release c hold rest) [(hold.tid, ok)] := by
      intro c rest ok hok
      have hother : ∀ j ≠ hold.tid, (s.release c hold rest).pc j = s.pc j := by
        intro j hj
        exact Function.update_of_ne hj ..
      have hself : (s.release c hold rest).pc hold.tid = .idle := Function.update_self ..
      refine ⟨fun j => ?_, .ends (x := { hold with write := { hold.write with rest := rest } }.sent)
        ?_ ?_ (fun j hj => ?_) rfl fun h => ?_⟩
      · refine iff_of_false (fun hj => ?_) (by simp [release])
        by_cases hji : j = hold.tid
        · rw [hji, hself] at hj
          cases hj
        · rw [hother j hji, hh j, hhold] at hj
          obtain ⟨_, heq, hjt⟩ := hj
          cases heq
          exact hji hjt.symm
      · simp only [underway, hwriting, hhold, Option.map_some]
        rfl
      · exact underway_eq_none.2 (.inl hself)
      · simp only [underway, hother j hj]
        cases hpcj : s.pc j with
        | idle => rfl
        | waiting kind frame => rfl
        | writing =>
          obtain ⟨k, hk, hkj⟩ := (hh j).1 hpcj
          rw [hhold] at hk
          cases hk
          exact absurd hkj.symm hj
      · rw [hok h]
        simp [Holder.sent]
    rcases s.client.writeAllPass_cases hold.write t with
      ⟨bs, rest, hout, -, -, -⟩ | ⟨hout, -⟩ | ⟨hout | ⟨what, hout⟩, -⟩
    · rw [hout] at h
      cases h
      exact again _ _
    · rw [hout] at h
      cases h
      exact done _ [] true fun _ => rfl
    · rw [hout] at h
      cases h
      exact again _ _
    · rw [hout] at h
      cases h
      exact done _ _ false (by simp)

/-- A finished send that is not complete has failed. -/
structure Finished (tr : List (ℕ × Bool)) (s : Uplink) : Prop where
  held : s.Held
  whole : (∀ i, (i, false) ∉ tr) → ∀ x ∈ s.log, x.accepted = x.frame

theorem Finished.step {tr : List (ℕ × Bool)} (h : s.Finished tr)
    (hs : lts.step s (i, act) = some (s', es)) : s'.Finished (tr ++ es) := by
  obtain ⟨hheld, hmoves⟩ := step_moves h.held hs
  refine ⟨hheld, fun hno => ?_⟩
  have hold := h.whole fun j hj => hno j (List.mem_append_left _ hj)
  cases hmoves with
  | begins _ _ _ hlog =>
    rw [hlog]
    exact hold
  | goes _ _ hlog =>
    rw [hlog]
    exact hold
  | @ends _ _ x ok _ _ _ hlog hok =>
    rw [hlog]
    intro y hy
    rcases List.mem_append.1 hy with hy | hy
    · exact hold y hy
    · obtain rfl := List.mem_singleton.1 hy
      refine hok ?_
      cases ok with
      | true => rfl
      | false => exact absurd (List.mem_append_right tr (List.mem_singleton.2 rfl)) (hno i)

theorem run_finished {c : WsClient} {as : List (ℕ × UplinkAct)} {tr : List (ℕ × Bool)}
    (h : lts.run { client := c } as = some (s, tr)) : s.Finished tr ∧ s.Sound c.tx := by
  constructor
  · refine Lts.run_invariant (I := fun tr s => s.Finished tr) (fun hi hs => hi.step hs) ?_ h
    refine ⟨fun i => iff_of_false (by simp) (by simp), fun _ x hx => absurd hx List.not_mem_nil⟩
  · refine Lts.run_invariant (I := fun _ s => s.Sound c.tx) (fun hi hs => (sound_step hi hs).1) ?_ h
    refine ⟨(List.append_nil _).symm, ?_, ?_, ?_⟩
    · intro x hx
      cases hx
    · intro x hx
      cases hx
    · intro j kind frame hj
      cases hj

/-! ## What the server reads -/

variable {tx₀ : Bytes}

/-- The last send is not complete. -/
theorem Sound.holder_truncated (h : s.Sound tx₀) {hold : Holder} (hh : s.holder = some hold) :
    hold.sent.accepted <+: hold.frame ∧ hold.sent.accepted ≠ hold.frame := by
  obtain ⟨hne, hsuf⟩ := h.rest hold hh
  refine ⟨List.take_prefix _ _, fun heq => ?_⟩
  have hlen := congrArg List.length heq
  simp only [Holder.sent, List.length_take] at hlen
  have hpos := List.length_pos_iff.2 hne
  have hle := hsuf.length_le
  omega

/-- **The server reads the finished sends**, if all of them are complete. -/
theorem read_whole (h : s.Sound tx₀) (hf : ∀ x ∈ s.sends, x.Framed)
    (hlog : ∀ x ∈ s.log, x.accepted = x.frame) : ∃ stream, s.client.tx = tx₀ ++ stream ∧
      decodeAll stream = s.log.filterMap Sent.read := by
  have hlog' : ∀ x ∈ s.log, x.Framed ∧ x.accepted = x.frame :=
    fun x hx => ⟨hf x (List.mem_append_left _ hx), hlog x hx⟩
  refine ⟨_, h.tx, ?_⟩
  cases hh : s.holder with
  | none =>
    rw [sends_of_none hh]
    have := decodeAll_sends (r := []) hlog' rfl
    rwa [List.append_nil] at this
  | some hold =>
    rw [sends_of_some hh, List.flatMap_append]
    obtain ⟨f, hwire⟩ := hf hold.sent (by rw [sends_of_some hh]; simp)
    obtain ⟨hpre, hne⟩ := h.holder_truncated hh
    have hend : [hold.sent].flatMap Sent.accepted = hold.sent.accepted := by simp
    rw [hend]
    exact decodeAll_sends hlog' (hwire.truncated hpre hne)

/-- Sends of which nothing was accepted leave no trace. -/
theorem flatMap_accepted (l : List Sent) :
    (l.filter (·.accepted ≠ [])).flatMap Sent.accepted = l.flatMap Sent.accepted := by
  induction l with
  | nil => rfl
  | cons x l ih =>
    by_cases hx : x.accepted = []
    · rw [List.filter_cons_of_neg (by simp [hx]), List.flatMap_cons, hx, List.nil_append, ih]
    · rw [List.filter_cons_of_pos (by simp [hx]), List.flatMap_cons, List.flatMap_cons, ih]

/-- **The server reads some of the sends, in their order**, if the stream is intact. -/
theorem read_intact (h : s.Sound tx₀) (hf : ∀ x ∈ s.sends, x.Framed) (hs : s.Intact) :
    ∃ stream, s.client.tx = tx₀ ++ stream ∧
      (decodeAll stream).Sublist (s.sends.filterMap Sent.read) := by
  obtain ⟨whole, part, hsplit, hwhole, hpart⟩ := hs
  refine ⟨_, h.tx, ?_⟩
  have hmem : ∀ x ∈ whole ++ part, x ∈ s.sends := by
    intro x hx
    rw [← hsplit] at hx
    exact (List.mem_filter.1 hx).1
  have hsub : (whole ++ part).Sublist s.sends := by
    rw [← hsplit]
    exact List.filter_sublist
  have hwhole' : ∀ x ∈ whole, x.Framed ∧ x.accepted = x.frame :=
    fun x hx => ⟨hf x (hmem x (List.mem_append_left _ hx)), hwhole x hx⟩
  rw [← flatMap_accepted, hsplit]
  cases part with
  | nil =>
    rw [List.append_nil] at hsub ⊢
    have hread := decodeAll_sends (r := []) hwhole' rfl
    rw [List.append_nil] at hread
    rw [hread]
    exact hsub.filterMap _
  | cons x part =>
    obtain rfl : part = [] := List.length_eq_zero_iff.1 (by simpa using hpart)
    have hx := hmem x (by simp)
    by_cases hcut : x.accepted = x.frame
    · have hread := decodeAll_sends (l := whole ++ [x]) (r := []) (fun y hy => ?_) rfl
      · rw [List.append_nil] at hread
        rw [hread]
        exact hsub.filterMap _
      · rcases List.mem_append.1 hy with hy | hy
        · exact hwhole' y hy
        · obtain rfl := List.mem_singleton.1 hy
          exact ⟨hf y hx, hcut⟩
    · obtain ⟨f, hwire⟩ := hf x hx
      have htrunc := hwire.truncated (h.sends x hx).2 hcut
      have hend : [x].flatMap Sent.accepted = x.accepted := by simp
      rw [List.flatMap_append, hend, decodeAll_sends hwhole' htrunc]
      exact ((List.sublist_append_left whole [x]).trans hsub).filterMap _

end Uplink

end TrtcAsr
