/-
  The text that the HMAC of a ticket signs (usersig.cc, `GenUserSigAt`).

  The user id is the first of its four lines and is not escaped: it may hold line ends and
  text that looks like the other lines.  The other three lines hold a tag and a decimal
  numeral only, so the line ends that close the lines before them are the last ones of the
  text (`append_sep_inj`).

  * `userSigContent_injective`: the text determines the four values that it is made of.
-/
import TrtcAsr.Lib.Numeral
import TrtcAsr.UserSig.Ticket

namespace TrtcAsr

/-! ## Lines -/

/-- Two texts agree only if they agree before and after their last separators. -/
theorem append_sep_inj {α : Type*} {sep : α} {x x' z z' : List α} (hz : sep ∉ z) (hz' : sep ∉ z')
    (h : x ++ sep :: z = x' ++ sep :: z') : x = x' ∧ z = z' := by
  rcases List.append_eq_append_iff.1 h with ⟨c, hx, hc⟩ | ⟨c, hx, hc⟩
  · cases c with
    | nil => exact ⟨by simpa using hx.symm, (List.cons.inj hc).2⟩
    | cons a c =>
      obtain ⟨rfl, hzc⟩ := List.cons.inj hc
      exact absurd (hzc ▸ by simp) hz
  · cases c with
    | nil => exact ⟨by simpa using hx, (List.cons.inj hc).2.symm⟩
    | cons a c =>
      obtain ⟨rfl, hzc⟩ := List.cons.inj hc
      exact absurd (hzc ▸ by simp) hz'

/-- A line of the text: a tag and a numeral. -/
def userSigLine (tag : Bytes) (n : ℤ) : Bytes := tag ++ toDec n

/-- The line ends of the text are not part of its tags and numerals. -/
theorem newline_notMem_line {tag : Bytes} (htag : 0x0A ∉ tag) (n : ℤ) :
    0x0A ∉ userSigLine tag n := by
  intro h
  rcases List.mem_append.1 h with h | h
  · exact htag h
  · rcases mem_toDec h with h | h
    all_goals exact absurd h (by decide)

theorem userSigContent_eq (sdkAppId : ℤ) (userId : Bytes) (expire now : ℤ) :
    userSigContent sdkAppId userId expire now =
      (((ascii "TLS.identifier:" ++ userId) ++
        0x0A :: userSigLine (ascii "TLS.sdkappid:") sdkAppId) ++
        0x0A :: userSigLine (ascii "TLS.time:") now) ++
        0x0A :: userSigLine (ascii "TLS.expire:") expire ++ [0x0A] := by
  have hnl : ascii "\n" = [0x0A] := rfl
  simp only [userSigContent, userSigLine, hnl, List.append_assoc, List.cons_append,
    List.nil_append]

/-- **The signed text is unambiguous**: it determines the user id, the application, the time and
    the lifetime. -/
theorem userSigContent_injective : Function.Injective fun t : Bytes × ℤ × ℤ × ℤ =>
    userSigContent t.2.1 t.1 t.2.2.2 t.2.2.1 := by
  rintro ⟨userId, sdkAppId, now, expire⟩ ⟨userId', sdkAppId', now', expire'⟩ h
  change userSigContent sdkAppId userId expire now =
    userSigContent sdkAppId' userId' expire' now' at h
  rw [userSigContent_eq, userSigContent_eq] at h
  have hend := List.append_cancel_right h
  have line := fun {tag : Bytes} (htag : 0x0A ∉ tag) => newline_notMem_line htag
  obtain ⟨hthree, hexpire⟩ := append_sep_inj (line (by decide) _) (line (by decide) _) hend
  obtain ⟨htwo, hnow⟩ := append_sep_inj (line (by decide) _) (line (by decide) _) hthree
  obtain ⟨huser, happ⟩ := append_sep_inj (line (by decide) _) (line (by decide) _) htwo
  have numeral := fun {tag : Bytes} {n m : ℤ} (hl : userSigLine tag n = userSigLine tag m) =>
    toDec_injective (List.append_cancel_left hl)
  rw [List.append_cancel_left huser, numeral happ, numeral hnow, numeral hexpire]

end TrtcAsr
