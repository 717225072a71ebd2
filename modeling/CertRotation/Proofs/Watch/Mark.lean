import CertRotation.Proofs.Text.Utf8
import CertRotation.Watch.Loader
import Mathlib.Data.List.Basic

/-!
# The usual mark of a staged copy

The usual pattern for staged copies is a tilde at the end.  It occurs in the texts that end in a
tilde, and erasing it takes off that one character; what it makes of paths is said without patterns:

* `Pattern.find?_finalTilde` — where the pattern occurs;
* `Path.IsMarked` — the path is readable and ends in a tilde;
* `Loader.staged?_tilde`, `Loader.staged?_eq_none` — a marked path stands for the path without the
  tilde, any other path for itself.
-/

set_option autoImplicit false

namespace CertRotation

/-- The byte of the usual mark. -/
def tilde : UInt8 := 126

theorem isPlain_tilde : Utf8.IsPlain tilde := show tilde < 0x80 by decide

namespace Pattern

/-- A tilde at the end of the text. -/
def finalTilde : Pattern := .seq (.one (CharClass.single '~')) (.place .textEnd)

theorem parse?_usualMarker : parse? LoaderConfig.usualMarker = some finalTilde := by decide

theorem contains_single (a c : Char) : (CharClass.single a).contains c = decide (a = c) := by
  rw [CharClass.single, CharClass.contains, Bool.eq_iff_iff]
  simp only [Bool.and_eq_true, decide_eq_true_eq]
  exact ⟨fun h => Char.le_antisymm h.1 h.2, fun h => h ▸ ⟨Char.le_refl a, Char.le_refl a⟩⟩

theorem heads_finalTilde (prev next : Option Char) :
    heads prev next finalTilde = [.eat (CharClass.single '~') (.place .textEnd)] := rfl

theorem run_textEnd (prev : Option Char) (text : List Char) (length : Nat) :
    run [.place .textEnd] prev text length none = if text = [] then some length else none := by
  cases text with
  | nil => rfl
  | cons c text => rfl

/-- The mark begins where the last character is, if that is a tilde. -/
theorem run_finalTilde (prev : Option Char) (text : List Char) :
    run [finalTilde] prev text 0 none = if text = ['~'] then some 1 else none := by
  cases text with
  | nil => rfl
  | cons c text =>
    have hstep : run [finalTilde] prev (c :: text) 0 none =
        if (CharClass.single '~').contains c then run [.place .textEnd] (some c) text 1 none
        else none := by
      rw [run, List.flatMap_cons, heads_finalTilde]
      cases hc : (CharClass.single '~').contains c with
      | false => simp [upToDone, hc]
      | true => simp [upToDone, hc, List.eraseDups_cons]
    rw [hstep, run_textEnd, contains_single]
    by_cases hc : '~' = c
    · subst hc
      simp
    · simp [hc, Ne.symm hc]

theorem findFrom_finalTilde (prev : Option Char) (text : List Char) (skipped : Nat) :
    findFrom finalTilde prev text skipped =
      if text.getLast? = some '~' then some (skipped + (text.length - 1), 1) else none := by
  induction text generalizing prev skipped with
  | nil => rfl
  | cons c text ih =>
    rw [findFrom, run_finalTilde]
    by_cases hlast : c :: text = ['~']
    · obtain ⟨rfl, rfl⟩ := List.cons_eq_cons.1 hlast
      simp
    · simp only [hlast, if_false, ih]
      cases text with
      | nil => simp_all
      | cons d text => simp [Nat.add_assoc, Nat.add_comm 1]

/-- **Where the mark occurs.** -/
theorem find?_finalTilde (text : List Char) :
    find? finalTilde text =
      if text.getLast? = some '~' then some (text.length - 1, 1) else none := by
  rw [find?, findFrom_finalTilde, Nat.zero_add]

theorem occursIn_finalTilde (text : List Char) :
    occursIn finalTilde text = decide (text.getLast? = some '~') := by
  rw [occursIn, find?_finalTilde]
  split <;> simp_all

theorem eraseFirst_finalTilde (text : List Char) :
    eraseFirst finalTilde (text ++ ['~']) = text := by
  rw [eraseFirst, find?_finalTilde, if_pos (by simp)]
  simp

end Pattern

/-! ## Marked paths -/

/-- The path is readable and ends in a tilde. -/
def Path.IsMarked (p : Path) : Prop :=
  (Utf8.decode? p.bytes).isSome ∧ p.bytes.getLast? = some tilde

theorem decode?_tilde (front : Bytes) :
    Utf8.decode? (front ++ [tilde]) = (Utf8.decode? front).map (· ++ ['~']) := by
  rw [Utf8.decode?_append_plain isPlain_tilde]
  cases Utf8.decode? front <;> rfl

theorem lossy_tilde (front : Bytes) : Utf8.lossy (front ++ [tilde]) = Utf8.lossy front ++ ['~'] :=
  Utf8.lossy_append_plain isPlain_tilde front []

theorem Path.isMarked_iff {p : Path} :
    p.IsMarked ↔ ∃ front, p = ⟨front ++ [tilde]⟩ ∧ (Utf8.decode? front).isSome := by
  obtain ⟨bytes⟩ := p
  constructor
  · rintro ⟨htext, hlast⟩
    obtain ⟨front, rfl⟩ := List.getLast?_eq_some_iff.1 hlast
    exact ⟨front, rfl, by simpa [decode?_tilde] using htext⟩
  · rintro ⟨front, hfront, htext⟩
    cases hfront
    exact ⟨by simpa [decode?_tilde] using htext, List.getLast?_concat⟩

namespace Loader

variable {l : Loader}

/-- **A staged copy stands for the path without the mark**, under the key without the mark. -/
theorem staged?_tilde (hm : l.marker = some Pattern.finalTilde) {front : Bytes}
    (hfront : (Utf8.decode? front).isSome) (key : Key) :
    l.staged? ⟨front ++ [tilde]⟩ (key ++ ['~']) = some (⟨front⟩, key) := by
  obtain ⟨text, htext⟩ := Option.isSome_iff_exists.1 hfront
  have hread : Utf8.decode? (front ++ [tilde]) = some (text ++ ['~']) := by
    rw [decode?_tilde, htext]
    rfl
  rw [staged?, hm]
  show (Utf8.decode? (front ++ [tilde]) >>= _) = _
  rw [hread]
  show (if _ then _ else _) = _
  rw [Pattern.occursIn_finalTilde, if_pos (by simp), Pattern.eraseFirst_finalTilde,
    Pattern.eraseFirst_finalTilde, Utf8.encode_of_decode? htext]

theorem staged?_eq_none (hm : l.marker = some Pattern.finalTilde) {p : Path} (hp : ¬ p.IsMarked)
    (key : Key) : l.staged? p key = none := by
  rw [staged?, hm]
  show (Utf8.decode? p.bytes >>= _) = _
  cases htext : Utf8.decode? p.bytes with
  | none => rfl
  | some text =>
    show (if _ then _ else _) = _
    refine if_neg fun hmark => hp ?_
    rw [Pattern.occursIn_finalTilde, decide_eq_true_eq] at hmark
    obtain ⟨front, rfl⟩ := List.getLast?_eq_some_iff.1 hmark
    have hbytes : p.bytes = Utf8.encode front ++ [tilde] := by
      rw [← Utf8.encode_of_decode? htext, Utf8.encode, List.flatMap_append]
      rfl
    exact ⟨by rw [htext]; rfl, by rw [hbytes, List.getLast?_concat]⟩

end Loader
end CertRotation
