import Mathlib.Tactic.SplitIfs
import PromptAudit.Text.Decode

namespace PromptAudit.Text

/-- What an unfinished character may be: its next byte has the high bit set, and it stands beyond
ASCII whatever follows. -/
def Pending.Beyond : Pending → Prop
  | .none => True
  | .more value missing low _ =>
      0x80 ≤ low ∧ 2 ≤ value * 64 + (low - 0x80) ∧ (missing ≤ 1 → 2 ≤ value)

theorem beyond_opening (b : Nat) : (opening b).2.Beyond := by
  unfold opening
  split_ifs <;> simp only [Pending.Beyond] <;> omega

theorem beyond_feed {p : Pending} (h : p.Beyond) (b : UInt8) : (feed p b).2.Beyond := by
  cases p with
  | none => exact beyond_opening _
  | more value missing low high =>
    obtain ⟨-, large, -⟩ := h
    simp only [feed]
    split
    · split
      · trivial
      · simp only [Pending.Beyond]
        omega
    · exact beyond_opening _

/-- An ASCII byte ends what is unfinished and stands for itself. -/
theorem feed_ascii {p : Pending} (h : p.Beyond) {b : UInt8} (ascii : b.toNat < 0x80) :
    feed p b = (p.flush ++ [Char.ofNat b.toNat], .none) := by
  have opened : opening b.toNat = ([Char.ofNat b.toNat], .none) := by rw [opening, if_pos ascii]
  cases p with
  | none => exact opened
  | more value missing low high =>
    have low_le := h.1
    rw [feed, if_neg (by omega), opened]
    rfl

theorem eq_of_ofNat_eq_lineFeed {n : Nat} (h : Char.ofNat n = '\n') : n = 10 := by
  by_cases valid : n.isValidChar
  · have same : Char.ofNatAux n valid = '\n' := (dif_pos valid).symm.trans h
    exact congrArg Char.toNat same
  · have null : '\x00' = '\n' := (dif_neg valid).symm.trans h
    cases null

theorem lineFeed_not_mem_opening {b : Nat} (other : b ≠ 10) : '\n' ∉ (opening b).1 := by
  unfold opening
  split_ifs
  · intro inside
    exact other (eq_of_ofNat_eq_lineFeed (List.mem_singleton.mp inside).symm)
  all_goals simp [replacement]

/-- No byte but the line feed itself gives a line feed. -/
theorem lineFeed_not_mem_feed {p : Pending} (h : p.Beyond) {b : UInt8} (other : b ≠ 10) :
    '\n' ∉ (feed p b).1 := by
  have other : b.toNat ≠ 10 := fun same => other (UInt8.toNat_inj.mp same)
  cases p with
  | none => exact lineFeed_not_mem_opening other
  | more value missing low high =>
    obtain ⟨-, -, last⟩ := h
    simp only [feed]
    split
    · split
      · rename_i done
        have large := last done
        intro inside
        have code := eq_of_ofNat_eq_lineFeed (List.mem_singleton.mp inside).symm
        omega
      · exact List.not_mem_nil
    · intro inside
      rcases List.mem_cons.mp inside with same | later
      · exact absurd same (by decide)
      · exact lineFeed_not_mem_opening other later

theorem decodeFrom_append_ascii {p : Pending} (h : p.Beyond) {b : UInt8} (ascii : b.toNat < 0x80)
    (a r : Bytes) :
    decodeFrom p (a ++ b :: r) = decodeFrom p a ++ Char.ofNat b.toNat :: decode r := by
  induction a generalizing p with
  | nil =>
    simp only [List.nil_append, decodeFrom, feed_ascii h ascii, List.append_assoc]
    rfl
  | cons d a ih =>
    rw [List.cons_append, decodeFrom, ih (beyond_feed h d), decodeFrom, List.append_assoc]

/-- Reading bytes on both sides of an ASCII byte apart is reading them together. -/
theorem decode_append_ascii {b : UInt8} (ascii : b.toNat < 0x80) (a r : Bytes) :
    decode (a ++ b :: r) = decode a ++ Char.ofNat b.toNat :: decode r :=
  decodeFrom_append_ascii (p := .none) trivial ascii a r

theorem count_flush (p : Pending) : p.flush.count '\n' = 0 := by cases p <;> rfl

theorem count_decodeFrom {p : Pending} (h : p.Beyond) (a : Bytes) :
    (decodeFrom p a).count '\n' = a.count 10 := by
  induction a generalizing p with
  | nil => exact count_flush p
  | cons b a ih =>
    rw [decodeFrom, List.count_append, ih (beyond_feed h b), Nat.add_comm, List.count_cons]
    by_cases same : b = 10
    · subst same
      rw [feed_ascii h (by decide), List.count_append, count_flush]
      rfl
    · rw [List.count_eq_zero.mpr (lineFeed_not_mem_feed h same), if_neg (by simpa using same)]

/-- Bytes have as many line feeds before and after they are read. -/
theorem count_decode (a : Bytes) : (decode a).count '\n' = a.count 10 :=
  count_decodeFrom (p := .none) trivial a

theorem lineFeed_not_mem_decode {a : Bytes} (free : 10 ∉ a) : '\n' ∉ decode a := by
  rw [← List.count_eq_zero, count_decode, List.count_eq_zero.mpr free]

end PromptAudit.Text
