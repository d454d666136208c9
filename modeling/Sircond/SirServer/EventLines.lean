import Sircond.SirServer.Impl.Events
import Sircond.SirCon.Lemmas.Dispatch
import Sircond.Lib.Quoted

/-!
This module contains which lines about songs and channels a client can read back, and that it cannot
read back the others.
-/

open Quoted

theorem parseDigits_unsigned (b : UInt8) : parseDigits (unsigned b) = b.toNat := by
  have h : ∀ n : Fin 256, parseDigits ((Nat.toDigits 10 n.val).map Char.toUInt8) = n.val := by
    decide +kernel
  exact h ⟨b.toNat, b.toNat_lt⟩

theorem isDigit_toUInt8 {c : Char} (h : c.isDigit = true) : isDigit c.toUInt8 = true := by
  have hzero : '0'.val.toNat = 0x30 := rfl
  have hnine : '9'.val.toNat = 0x39 := rfl
  simp only [Char.isDigit, Bool.and_eq_true, decide_eq_true_eq, ge_iff_le, UInt32.le_iff_toNat_le,
    hzero, hnine] at h
  have htoNat : c.toUInt8.toNat = c.val.toNat := by
    rw [Char.toUInt8, UInt32.toNat_toUInt8]
    omega
  simp only [isDigit, Bool.and_eq_true, decide_eq_true_eq, UInt8.le_iff_toNat_le, htoNat]
  exact h

theorem isDigit_of_mem_unsigned (b : UInt8) : ∀ d ∈ unsigned b, isDigit d = true := by
  intro d hd
  obtain ⟨c, hc, rfl⟩ := List.mem_map.mp hd
  exact isDigit_toUInt8 (Nat.isDigit_of_mem_toDigits (by decide) (by decide) hc)

theorem takeWhile_unsigned (b : UInt8) (rest : List UInt8)
    : (unsigned b ++ 0x2C :: rest).takeWhile isDigit = unsigned b := by
  rw [List.takeWhile_append_of_pos (isDigit_of_mem_unsigned b),
    List.takeWhile_cons_of_neg (by decide), List.append_nil]

theorem newline_notMem_unsigned (b : UInt8) : 0x0A ∉ unsigned b := by
  intro h
  have := isDigit_of_mem_unsigned b _ h
  simp [isDigit] at this

def numbersText (numbers : List UInt8) : List UInt8 :=
  numbers.flatMap fun b => unsigned b ++ [0x2C]

theorem numbersText_inj {numbers numbers' : List UInt8} (hlen : numbers'.length = numbers.length)
    : ∀ {rest rest' : List UInt8},
        numbersText numbers' ++ rest' = numbersText numbers ++ rest →
          numbers' = numbers ∧ rest' = rest := by
  induction numbers generalizing numbers' with
  | nil =>
    intro rest rest' h
    obtain rfl := List.eq_nil_of_length_eq_zero hlen
    exact ⟨rfl, h⟩
  | cons b numbers ih =>
    intro rest rest' h
    obtain ⟨b', numbers', rfl⟩ := List.exists_cons_of_length_eq_add_one hlen
    have hcons (b : UInt8) (numbers rest : List UInt8)
        : numbersText (b :: numbers) ++ rest = unsigned b ++ 0x2C :: (numbersText numbers ++ rest) := by
      simp [numbersText]
    rw [hcons, hcons] at h
    have hb := congrArg (List.takeWhile isDigit) h
    rw [takeWhile_unsigned, takeWhile_unsigned] at hb
    rw [hb, List.append_cancel_left_eq, List.cons.injEq] at h
    obtain ⟨rfl, hrest⟩ := ih (by simpa using hlen) h.2
    have htoNat := congrArg parseDigits hb
    rw [parseDigits_unsigned, parseDigits_unsigned, UInt8.toNat_inj] at htoNat
    exact ⟨by rw [htoNat], hrest⟩

theorem newline_notMem_numbersText (numbers : List UInt8) : 0x0A ∉ numbersText numbers := by
  intro h
  simp only [numbersText, List.mem_flatMap, List.mem_append, List.mem_singleton] at h
  obtain ⟨b, -, hb | hb⟩ := h
  . apply newline_notMem_unsigned b hb
  . simp at hb

/--
Events of which a line is made: the name of the event, numbers, and at least two strings.
-/
structure LineFormat (E : Type) where
  line : E → List UInt8
  name : List UInt8
  numbers : E → List UInt8
  strings : E → List (List UInt8)
  setStrings : E → List (List UInt8) → E
  count : Nat
  line_eq : ∀ e, line e
    = name ++ (numbersText (numbers e) ++ (quoted (join 0x22 0x2C (strings e)) ++ endl))
  newline_notMem_name : 0x0A ∉ name
  length_numbers : ∀ e e', (numbers e').length = (numbers e).length
  two_le_count : 2 ≤ count
  length_strings : ∀ e, (strings e).length = count
  numbers_setStrings : ∀ e fs, fs.length = count → numbers (setStrings e fs) = numbers e
  strings_setStrings : ∀ e fs, fs.length = count → strings (setStrings e fs) = fs

/--
The strings of a line that can be told apart: they are clean and there is no newline in them.
-/
structure Readable (strings : List (List UInt8)) : Prop where
  clean : Clean 0x22 0x2C strings
  oneLine : ∀ str ∈ strings, 0x0A ∉ str

namespace LineFormat

variable {E : Type} (f : LineFormat E)

theorem line_eq_iff (e e' : E)
    : f.line e' = f.line e
        ↔
      f.numbers e' = f.numbers e
        ∧ join 0x22 0x2C (f.strings e') = join 0x22 0x2C (f.strings e) := by
  rw [f.line_eq, f.line_eq, List.append_cancel_left_eq]
  constructor
  . intro h
    obtain ⟨hnumbers, hrest⟩ := numbersText_inj (f.length_numbers e e') h
    rw [List.append_left_inj] at hrest
    simp only [quoted, List.cons_append, List.cons.injEq, true_and, List.append_left_inj] at hrest
    exact ⟨hnumbers, hrest⟩
  . rintro ⟨hnumbers, hjoin⟩
    rw [hnumbers, hjoin]

theorem newline_notMem_iff (e : E)
    : 0x0A ∉ (f.line e).dropLast ↔ ∀ str ∈ f.strings e, 0x0A ∉ str := by
  have hbody : (f.line e).dropLast
      = f.name ++ (numbersText (f.numbers e) ++ quoted (join 0x22 0x2C (f.strings e))) := by
    have hendl : endl = [0x0A] := rfl
    rw [f.line_eq, ← List.append_assoc, ← List.append_assoc, hendl, List.dropLast_concat,
      List.append_assoc]
  have hname := f.newline_notMem_name
  have hnumbers := newline_notMem_numbersText (f.numbers e)
  have hjoin := mem_join_iff (q := 0x22) (c := 0x2C) (x := (0x0A : UInt8)) (by decide) (by decide)
    (f.strings e)
  simp [hbody, hname, hnumbers, quoted, hjoin]

theorem length_flatten_of_join_eq {e : E} {fs : List (List UInt8)} (hlen : fs.length = f.count)
    (h : join 0x22 0x2C fs = join 0x22 0x2C (f.strings e))
    : fs.flatten.length = (f.strings e).flatten.length := by
  have hcount := f.two_le_count
  have hlen' := f.length_strings e
  have hlength := length_join (q := (0x22 : UInt8)) (c := 0x2C) (List.ne_nil_of_length_pos (l := fs)
    (by omega))
  have hlength' := length_join (q := (0x22 : UInt8)) (c := 0x2C)
    (List.ne_nil_of_length_pos (l := f.strings e) (by omega))
  rw [h] at hlength
  omega

/--
Whatever number of bytes there is for the strings, the fields can be recovered from a line if and only
if its strings are readable.
-/
theorem recoverable_iff (limit : Nat) {e : E} (hlimit : (f.strings e).flatten.length ≤ limit)
    : ((∀ e', (f.strings e').flatten.length ≤ limit → f.line e' = f.line e →
          f.numbers e' = f.numbers e ∧ f.strings e' = f.strings e)
        ∧ 0x0A ∉ (f.line e).dropLast)
        ↔
      Readable (f.strings e) := by
  rw [newline_notMem_iff]
  constructor
  . rintro ⟨hunique, honeLine⟩
    refine ⟨?_, honeLine⟩
    by_contra hclean
    have hlen := f.length_strings e
    have hcount := f.two_le_count
    obtain ⟨fs, hfs, hjoin, hne⟩ := exists_join_eq_of_not_clean (by omega) hclean
    rw [hlen] at hfs
    have hstrings := f.strings_setStrings e fs hfs
    apply hne
    rw [← hstrings]
    apply (hunique (f.setStrings e fs) _ _).2
    . rw [hstrings, f.length_flatten_of_join_eq hfs hjoin]
      exact hlimit
    . rw [line_eq_iff, f.numbers_setStrings e fs hfs, hstrings]
      exact ⟨rfl, hjoin⟩
  . intro h
    refine ⟨?_, h.oneLine⟩
    intro e' _ hline
    rw [line_eq_iff] at hline
    have hlen : (f.strings e').length = (f.strings e).length := by
      rw [f.length_strings, f.length_strings]
    exact ⟨hline.1, join_inj (by decide) h.clean hlen hline.2⟩

end LineFormat

theorem quoted_join (str : List UInt8) {strings : List (List UInt8)} (hne : strings ≠ [])
    : quoted (join 0x22 0x2C (str :: strings))
        = quoted str ++ ascii "," ++ quoted (join 0x22 0x2C strings) := by
  have hcomma : ascii "," = [0x2C] := rfl
  rw [join_cons str hne]
  simp [quoted, separator, hcomma]

namespace SCESongInfo

def strings (e : SCESongInfo) : List (List UInt8) :=
  [e.songId, e.artistId, e.title, e.artist, e.composer]

def setStrings (e : SCESongInfo) : List (List UInt8) → SCESongInfo
  | [songId, artistId, title, artist, composer] =>
    { e with songId, artistId, title, artist, composer }
  | _ => e

def format : LineFormat SCESongInfo where
  line := line
  name := ascii "SONGINFO,"
  numbers e := [e.channel]
  strings := strings
  setStrings := setStrings
  count := 5
  line_eq e := by
    have hcomma : ascii "," = [0x2C] := rfl
    unfold strings
    rw [quoted_join _ (by simp), quoted_join _ (by simp), quoted_join _ (by simp),
      quoted_join _ (by simp), join_singleton]
    simp [line, out, numbersText, hcomma]
  newline_notMem_name := by decide
  length_numbers _ _ := rfl
  two_le_count := by decide
  length_strings _ := rfl
  numbers_setStrings e fs _ := by
    unfold setStrings
    split <;> rfl
  strings_setStrings _ fs hlen :=
    match fs, hlen with
    | [_, _, _, _, _], _ => rfl

end SCESongInfo

namespace SCEChannelInfo

def strings (e : SCEChannelInfo) : List (List UInt8) := [e.lname, e.sname, e.lgenre, e.sgenre]

def setStrings (e : SCEChannelInfo) : List (List UInt8) → SCEChannelInfo
  | [lname, sname, lgenre, sgenre] => { e with lname, sname, lgenre, sgenre }
  | _ => e

def format : LineFormat SCEChannelInfo where
  line := line
  name := ascii "CHANNELINFO,"
  numbers e := [e.channel, e.genre]
  strings := strings
  setStrings := setStrings
  count := 4
  line_eq e := by
    have hcomma : ascii "," = [0x2C] := rfl
    unfold strings
    rw [quoted_join _ (by simp), quoted_join _ (by simp), quoted_join _ (by simp), join_singleton]
    simp [line, out, numbersText, hcomma]
  newline_notMem_name := by decide
  length_numbers _ _ := rfl
  two_le_count := by decide
  length_strings _ := rfl
  numbers_setStrings e fs _ := by
    unfold setStrings
    split <;> rfl
  strings_setStrings _ fs hlen :=
    match fs, hlen with
    | [_, _, _, _], _ => rfl

end SCEChannelInfo

namespace CSirServer

/--
A client can recover the fields of an event from its line if and only if the strings are readable,
whatever number of bytes the radio has for the strings of an event.
-/
theorem eventLines_iff (limit : Nat)
    : (∀ e : SCESongInfo, e.strings.flatten.length ≤ limit →
        (((∀ e' : SCESongInfo, e'.strings.flatten.length ≤ limit → e'.line = e.line →
              e'.channel = e.channel ∧ e'.songId = e.songId ∧ e'.artistId = e.artistId
                ∧ e'.title = e.title ∧ e'.artist = e.artist ∧ e'.composer = e.composer)
            ∧ 0x0A ∉ e.line.dropLast)
          ↔
          Readable e.strings))
        ∧
      ∀ e : SCEChannelInfo, e.strings.flatten.length ≤ limit →
        (((∀ e' : SCEChannelInfo, e'.strings.flatten.length ≤ limit → e'.line = e.line →
              e'.channel = e.channel ∧ e'.genre = e.genre ∧ e'.lname = e.lname
                ∧ e'.sname = e.sname ∧ e'.lgenre = e.lgenre ∧ e'.sgenre = e.sgenre)
            ∧ 0x0A ∉ e.line.dropLast)
          ↔
          Readable e.strings) := by
  constructor
  . intro e hlimit
    simpa [SCESongInfo.format, SCESongInfo.strings] using
      SCESongInfo.format.recoverable_iff limit hlimit
  . intro e hlimit
    simpa [SCEChannelInfo.format, SCEChannelInfo.strings, and_assoc] using
      SCEChannelInfo.format.recoverable_iff limit hlimit

theorem eventLines_iff_comma
    : ∀ e' : SCESongInfo, e'.strings.flatten.length ≤ 241 →
        e'.line = (SCESongInfo.mk 20 (ascii "So, What") (ascii "Pink") [] [] (ascii "a1") [0x2C]).line
          → e'.title = ascii "So, What" ∧ e'.artistId = [0x2C] := by
  have hreadable
      : Readable (SCESongInfo.mk 20 (ascii "So, What") (ascii "Pink") [] [] (ascii "a1")
          [0x2C]).strings := ⟨by decide, by decide⟩
  have h := (((eventLines_iff 241).1 _ (by decide)).mpr hreadable).1
  intro e' hlimit hline
  obtain ⟨-, -, hartistId, htitle, -⟩ := h e' hlimit hline
  exact ⟨htitle, hartistId⟩

theorem song_ambiguous
    : ((Cache.new.dispatch 0 14).value
        (memory [0x80, 0x01, 20, 2, 0x86, 5, 0x61, 0x22, 0x2C, 0x22, 0x62, 0x88, 1, 0x63]
          fun _ => 0)).2
          = [.songInfo ⟨20, [], [], [], [], [0x61, 0x22, 0x2C, 0x22, 0x62], [0x63]⟩]
        ∧ ((Cache.new.dispatch 0 14).value
          (memory [0x80, 0x01, 20, 2, 0x86, 1, 0x61, 0x88, 5, 0x62, 0x22, 0x2C, 0x22, 0x63]
            fun _ => 0)).2
          = [.songInfo ⟨20, [], [], [], [], [0x61], [0x62, 0x22, 0x2C, 0x22, 0x63]⟩]
        ∧ (SCESongInfo.mk 20 [] [] [] [] [0x61, 0x22, 0x2C, 0x22, 0x62] [0x63]).line
          = (SCESongInfo.mk 20 [] [] [] [] [0x61] [0x62, 0x22, 0x2C, 0x22, 0x63]).line
        ∧ ¬ ∀ e e' : SCESongInfo, e'.line = e.line → e'.songId = e.songId := by
  refine ⟨by decide, by decide, by decide, ?_⟩
  intro h
  have hsongId := h ⟨20, [], [], [], [], [0x61, 0x22, 0x2C, 0x22, 0x62], [0x63]⟩
    ⟨20, [], [], [], [], [0x61], [0x62, 0x22, 0x2C, 0x22, 0x63]⟩ (by decide)
  simp at hsongId

end CSirServer
