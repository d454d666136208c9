import Sircond.SirServer.Lemmas.Text
import Sircond.SirServer.Impl.Command
import Sircond.Lib.Split

/-!
This module contains the text protocol as a client sees it: a stream of lines, each of them a reply to a
command or a notice. A `View` is what a line says: its keyword, the numbers and the quoted strings behind
it, and for some keywords a text without quotes. The keyword says how much stands behind it.
-/

open Quoted

structure Shape where
  numbers : Nat
  strings : Nat
  tail : Bool
  deriving DecidableEq

structure View where
  keyword : List UInt8
  numbers : List Int
  strings : List (List UInt8)
  tail : Option (List UInt8)
  deriving DecidableEq

namespace View

def shape (v : View) : Shape where
  numbers := v.numbers.length
  strings := v.strings.length
  tail := v.tail.isSome

def numbersPart (numbers : List Int) : List UInt8 := numbers.flatMap fun n => 0x2C :: signed n

def stringsPart (strings : List (List UInt8)) : List UInt8 :=
  if strings = [] then [] else 0x2C :: quoted (join 0x22 0x2C strings)

def tailPart : Option (List UInt8) → List UInt8
  | some str => 0x2C :: str
  | none => []

def text (v : View) : List UInt8 :=
  v.keyword ++ (numbersPart v.numbers ++ (stringsPart v.strings ++ tailPart v.tail))

/-- Nothing stands there, or a comma and what is behind it. -/
def AtComma (rest : List UInt8) : Prop := ∀ b ∈ rest.head?, b = 0x2C

theorem atComma_tailPart (tail : Option (List UInt8)) : AtComma (tailPart tail) := by
  cases tail with
  | none => simp [AtComma, tailPart]
  | some str => simp [AtComma, tailPart]

theorem atComma_stringsPart (strings : List (List UInt8)) (tail : Option (List UInt8))
    : AtComma (stringsPart strings ++ tailPart tail) := by
  unfold stringsPart
  split
  . apply atComma_tailPart
  . simp [AtComma]

theorem atComma_numbersPart (numbers : List Int) {rest : List UInt8} (h : AtComma rest)
    : AtComma (numbersPart numbers ++ rest) := by
  cases numbers with
  | nil => apply h
  | cons n numbers => simp [AtComma, numbersPart]

/-- Two texts that go on with the same kind of byte end at the same place. -/
theorem append_inj_of_all (p : UInt8 → Bool) {front front' rest rest' : List UInt8}
    (hfront : ∀ b ∈ front, p b = true) (hfront' : ∀ b ∈ front', p b = true)
    (hrest : ∀ b ∈ rest.head?, p b = false) (hrest' : ∀ b ∈ rest'.head?, p b = false)
    (h : front ++ rest = front' ++ rest')
    : front = front' ∧ rest = rest' := by
  have htake : ∀ {front rest : List UInt8}, (∀ b ∈ front, p b = true) →
      (∀ b ∈ rest.head?, p b = false) → (front ++ rest).takeWhile p = front := by
    intro front rest hfront hrest
    rw [List.takeWhile_append_of_pos hfront]
    cases rest with
    | nil => simp
    | cons b rest =>
      have hb : p b = false := hrest b rfl
      rw [List.takeWhile_cons_of_neg (by simp [hb]), List.append_nil]
  have heq : front = front' := by
    rw [← htake hfront hrest, h, htake hfront' hrest']
  rw [heq, List.append_cancel_left_eq] at h
  exact ⟨heq, h⟩

theorem keyword_inj {k k' rest rest' : List UInt8} (hk : 0x2C ∉ k) (hk' : 0x2C ∉ k')
    (hrest : AtComma rest) (hrest' : AtComma rest') (h : k ++ rest = k' ++ rest')
    : k = k' ∧ rest = rest' := by
  apply append_inj_of_all (fun b => b ≠ 0x2C) _ _ _ _ h
  . intro b hb
    simpa using ne_of_mem_of_not_mem hb hk
  . intro b hb
    simpa using ne_of_mem_of_not_mem hb hk'
  . intro b hb
    simpa using hrest b hb
  . intro b hb
    simpa using hrest' b hb

theorem numbersPart_inj {numbers numbers' : List Int} (hlen : numbers.length = numbers'.length)
    {rest rest' : List UInt8} (hrest : AtComma rest) (hrest' : AtComma rest')
    (h : numbersPart numbers ++ rest = numbersPart numbers' ++ rest')
    : numbers = numbers' ∧ rest = rest' := by
  induction numbers generalizing numbers' with
  | nil =>
    obtain rfl := List.eq_nil_of_length_eq_zero hlen.symm
    exact ⟨rfl, h⟩
  | cons n numbers ih =>
    obtain ⟨n', numbers', rfl⟩ := List.exists_cons_of_length_eq_add_one hlen.symm
    have hcons : ∀ n (numbers : List Int) rest, numbersPart (n :: numbers) ++ rest
        = 0x2C :: (signed n ++ (numbersPart numbers ++ rest)) := by
      intro n numbers rest
      simp [numbersPart]
    rw [hcons, hcons, List.cons.injEq] at h
    have hsigned : ∀ n : Int, ∀ b ∈ signed n, (isDigit b || b = 0x2D) = true := by
      intro n b hb
      simpa using mem_signed hb
    have hcomma : ∀ rest, AtComma rest → ∀ b ∈ rest.head?, (isDigit b || b = 0x2D) = false := by
      intro rest hrest b hb
      rw [hrest b hb]
      decide
    obtain ⟨hn, htail⟩ := append_inj_of_all (fun b => isDigit b || b = 0x2D) (hsigned n)
      (hsigned n') (hcomma _ (atComma_numbersPart numbers hrest))
      (hcomma _ (atComma_numbersPart numbers' hrest')) h.2
    obtain ⟨hnumbers, heq⟩ := ih (by simpa using hlen) htail
    exact ⟨by rw [signed_inj hn, hnumbers], heq⟩

/--
Two texts of one shape say the same, if the strings of one of them are clean and only one of the two
kinds of text stands behind the numbers.
-/
theorem text_inj {v v' : View} (hkeyword : 0x2C ∉ v.keyword) (hkeyword' : 0x2C ∉ v'.keyword)
    (hshape : v.keyword = v'.keyword → v.shape = v'.shape) (hclean : Clean 0x22 0x2C v'.strings)
    (htail : v'.strings = [] ∨ v'.tail = none) (h : v.text = v'.text)
    : v = v' := by
  obtain ⟨hk, hrest⟩ := keyword_inj hkeyword hkeyword'
    (atComma_numbersPart _ (atComma_stringsPart _ _))
    (atComma_numbersPart _ (atComma_stringsPart _ _)) h
  obtain ⟨hnumbers, hstrings, htails⟩ := Shape.mk.inj (hshape hk)
  obtain ⟨hn, hrest⟩ := numbersPart_inj hnumbers (atComma_stringsPart _ _) (atComma_stringsPart _ _)
    hrest
  obtain ⟨k, ns, strings, tail⟩ := v
  obtain ⟨k', ns', strings', tail'⟩ := v'
  dsimp only at hk hn hrest hstrings htails hclean htail
  rw [hk, hn]
  cases htail with
  | inl hnil =>
    rw [hnil] at hstrings hrest ⊢
    rw [List.eq_nil_of_length_eq_zero hstrings] at hrest ⊢
    cases tail with
    | none =>
      cases tail' with
      | none => rfl
      | some str' => simp at htails
    | some str =>
      cases tail' with
      | none => simp at htails
      | some str' =>
        rw [List.append_cancel_left_eq, tailPart, tailPart, List.cons.injEq] at hrest
        rw [hrest.2]
  | inr hnone =>
    rw [hnone] at htails hrest ⊢
    rw [Option.isSome_none, Option.isSome_eq_false_iff, Option.isNone_iff_eq_none] at htails
    rw [htails] at hrest ⊢
    rw [List.append_left_inj] at hrest
    by_cases hnil : strings' = []
    . rw [hnil] at hstrings ⊢
      rw [List.eq_nil_of_length_eq_zero hstrings]
    . have hnil' : strings ≠ [] := by
        rintro rfl
        exact hnil (List.eq_nil_of_length_eq_zero hstrings.symm)
      unfold stringsPart at hrest
      rw [if_neg hnil, if_neg hnil'] at hrest
      simp only [quoted, List.cons_append, List.cons.injEq, true_and, List.append_left_inj] at hrest
      rw [join_inj (by decide) hclean hstrings hrest]

theorem newline_notMem_text {v : View} (hkeyword : 0x0A ∉ v.keyword)
    (hstrings : ∀ str ∈ v.strings, 0x0A ∉ str) (htail : ∀ str ∈ v.tail, 0x0A ∉ str)
    : 0x0A ∉ v.text := by
  have hnumbers : 0x0A ∉ numbersPart v.numbers := by
    intro h
    simp only [numbersPart, List.mem_flatMap, List.mem_cons] at h
    obtain ⟨n, -, hcomma | hn⟩ := h
    . simp at hcomma
    . rcases mem_signed hn with hdigit | hminus
      . simp [isDigit] at hdigit
      . simp at hminus
  have hjoin : 0x0A ∉ stringsPart v.strings := by
    unfold stringsPart
    split
    . simp
    . have hiff := mem_join_iff (q := 0x22) (c := 0x2C) (x := (0x0A : UInt8)) (by decide)
        (by decide) v.strings
      simpa [quoted, hiff] using hstrings
  have hrest : 0x0A ∉ tailPart v.tail := by
    cases ht : v.tail with
    | none => simp [tailPart]
    | some str => simpa [tailPart] using htail str ht
  simp [text, hkeyword, hnumbers, hjoin, hrest]

end View

/-- What a client is told in return for a command. -/
inductive Reply where
  | ok
  | timeout
  | error
  | acquired
  | pending
  | released
  | blank
  deriving DecidableEq, Repr

namespace Reply

def line : Reply → List UInt8
  | .ok => ascii "OK\n"
  | .timeout => ascii "TIMEOUT\n"
  | .error => ascii "ERROR\n"
  | .acquired => ascii "CONTROL,ACQUIRED\n"
  | .pending => ascii "CONTROL,PENDING\n"
  | .released => ascii "CONTROL,RELEASED\n"
  | .blank => ascii "\n"

def view : Reply → View
  | .ok => ⟨ascii "OK", [], [], none⟩
  | .timeout => ⟨ascii "TIMEOUT", [], [], none⟩
  | .error => ⟨ascii "ERROR", [], [], none⟩
  | .acquired => ⟨ascii "CONTROL", [], [], some (ascii "ACQUIRED")⟩
  | .pending => ⟨ascii "CONTROL", [], [], some (ascii "PENDING")⟩
  | .released => ⟨ascii "CONTROL", [], [], some (ascii "RELEASED")⟩
  | .blank => ⟨[], [], [], none⟩

theorem length_line_lt (r : Reply) : r.line.length < UInt32.size := by
  cases r <;> decide

end Reply

def SCEvent.view : SCEvent → View
  | .reset => ⟨ascii "RESET", [], [], none⟩
  | .getResult result => ⟨ascii "GET", [result.toNat], [], none⟩
  | .setResult result => ⟨ascii "SET", [result.toNat], [], none⟩
  | .siriusID e => ⟨ascii "SID", [], [], some e.sid⟩
  | .gain e => ⟨ascii "GAIN", [e.gain.toInt], [], none⟩
  | .mute e => ⟨ascii "MUTE", [e.mute.toNat], [], none⟩
  | .songID e => ⟨ascii "SONGID", [], [e.songid], none⟩
  | .songInfo e => ⟨ascii "SONGINFO", [e.channel.toNat], e.strings, none⟩
  | .channel e => ⟨ascii "CHANNEL", [e.channel.toNat], [], none⟩
  | .channelInfo e => ⟨ascii "CHANNELINFO", [e.channel.toNat, e.genre.toNat], e.strings, none⟩
  | .channelMap _ => ⟨ascii "CHANNELMAP", [], [], none⟩
  | .status e => ⟨ascii "STATUS", [e.type.toNat, e.status1.toNat, e.status2.toNat], [], none⟩
  | .rssi e => ⟨ascii "RSSI", [e.composite.toNat, e.satellite.toNat, e.terrestrial.toNat], [], none⟩
  | .signal e => ⟨ascii "SIGNAL", [e.signal.toNat], [], none⟩
  | .antenna e => ⟨ascii "ANTENNA", [e.antenna.toNat], [], none⟩
  | .power e => ⟨ascii "POWER", [e.power.toNat], [], none⟩
  | .timeZoneInfo e => ⟨ascii "TZINFO", [e.offset.toInt, e.dst.toNat], [], none⟩
  | .time e =>
    ⟨ascii "TIME", [e.year.toNat, e.mon.toNat, e.day.toNat, e.hour.toNat, e.min.toNat, e.sec.toNat,
      e.dow.toNat, e.dst.toNat], [], none⟩

def Notice.view : Notice → View
  | .startup => ⟨ascii "STARTUP", [], [], none⟩
  | .shutdown => ⟨ascii "SHUTDOWN", [], [], none⟩
  | .event e => e.view

inductive Message where
  | reply (r : Reply)
  | notice (n : Notice)
  deriving DecidableEq

namespace Message

def line : Message → List UInt8
  | .reply r => r.line
  | .notice n => n.line

def view : Message → View
  | .reply r => r.view
  | .notice n => n.view

/-- What a message says in its line: neither the album of a song nor the bitmap of the channels. -/
def printed : Message → Message
  | .notice (.event (.songInfo e)) => .notice (.event (.songInfo { e with album := [] }))
  | .notice (.event (.channelMap _)) => .notice (.event (.channelMap ⟨[]⟩))
  | m => m

/-- What stands behind each keyword. -/
def grammar : List (List UInt8 × Shape) := [
  (ascii "OK", ⟨0, 0, false⟩), (ascii "TIMEOUT", ⟨0, 0, false⟩), (ascii "ERROR", ⟨0, 0, false⟩),
  (ascii "CONTROL", ⟨0, 0, true⟩), ([], ⟨0, 0, false⟩), (ascii "STARTUP", ⟨0, 0, false⟩),
  (ascii "SHUTDOWN", ⟨0, 0, false⟩), (ascii "RESET", ⟨0, 0, false⟩), (ascii "GET", ⟨1, 0, false⟩),
  (ascii "SET", ⟨1, 0, false⟩), (ascii "SID", ⟨0, 0, true⟩), (ascii "GAIN", ⟨1, 0, false⟩),
  (ascii "MUTE", ⟨1, 0, false⟩), (ascii "SONGID", ⟨0, 1, false⟩),
  (ascii "SONGINFO", ⟨1, 5, false⟩), (ascii "CHANNEL", ⟨1, 0, false⟩),
  (ascii "CHANNELINFO", ⟨2, 4, false⟩), (ascii "CHANNELMAP", ⟨0, 0, false⟩),
  (ascii "STATUS", ⟨3, 0, false⟩), (ascii "RSSI", ⟨3, 0, false⟩), (ascii "SIGNAL", ⟨1, 0, false⟩),
  (ascii "ANTENNA", ⟨1, 0, false⟩), (ascii "POWER", ⟨1, 0, false⟩),
  (ascii "TZINFO", ⟨2, 0, false⟩), (ascii "TIME", ⟨8, 0, false⟩)
]

theorem lookup_keyword (m : Message) : grammar.lookup m.view.keyword = some m.view.shape := by
  cases m with
  | reply r => cases r <;> rfl
  | notice n =>
    cases n with
    | startup | shutdown => rfl
    | event e => cases e <;> rfl

theorem keyword_plain (m : Message) : 0x2C ∉ m.view.keyword ∧ 0x0A ∉ m.view.keyword := by
  have hall : ∀ entry ∈ grammar, 0x2C ∉ entry.1 ∧ 0x0A ∉ entry.1 := by decide
  have hlookup := m.lookup_keyword
  rw [List.lookup_eq_some_iff] at hlookup
  obtain ⟨front, rest, hgrammar, -⟩ := hlookup
  apply hall (m.view.keyword, m.view.shape)
  rw [hgrammar]
  simp

def ofNumbers (event : List Int → Option SCEvent) (v : View) : Option Message :=
  (event v.numbers).map fun e => .notice (.event e)

def ofByte (event : UInt8 → SCEvent) : View → Option Message :=
  ofNumbers fun
    | [n] => some (event (.ofNat n.toNat))
    | _ => none

def ofThreeBytes (event : UInt8 → UInt8 → UInt8 → SCEvent) : View → Option Message :=
  ofNumbers fun
    | [n₀, n₁, n₂] => some (event (.ofNat n₀.toNat) (.ofNat n₁.toNat) (.ofNat n₂.toNat))
    | _ => none

/-- How a client finds out what it is told, from the keyword on. -/
def readers : List (List UInt8 × (View → Option Message)) := [
  (ascii "OK", fun _ => some (.reply .ok)),
  (ascii "TIMEOUT", fun _ => some (.reply .timeout)),
  (ascii "ERROR", fun _ => some (.reply .error)),
  (ascii "CONTROL", fun v =>
    if v.tail = some (ascii "ACQUIRED") then
      some (.reply .acquired)
    else if v.tail = some (ascii "PENDING") then
      some (.reply .pending)
    else
      some (.reply .released)),
  ([], fun _ => some (.reply .blank)),
  (ascii "STARTUP", fun _ => some (.notice .startup)),
  (ascii "SHUTDOWN", fun _ => some (.notice .shutdown)),
  (ascii "RESET", fun _ => some (.notice (.event .reset))),
  (ascii "GET", ofNumbers fun
    | [n] => some (.getResult (.ofNat n.toNat))
    | _ => none),
  (ascii "SET", ofNumbers fun
    | [n] => some (.setResult (.ofNat n.toNat))
    | _ => none),
  (ascii "SID", fun v => v.tail.map fun sid => .notice (.event (.siriusID ⟨sid⟩))),
  (ascii "GAIN", ofNumbers fun
    | [n] => some (.gain ⟨.ofInt n⟩)
    | _ => none),
  (ascii "MUTE", ofByte fun b => .mute ⟨b⟩),
  (ascii "SONGID", fun v => v.strings.head?.map fun id => .notice (.event (.songID ⟨id⟩))),
  (ascii "SONGINFO", fun v =>
    ofByte (fun b => .songInfo ((SCESongInfo.new b).setStrings v.strings)) v),
  (ascii "CHANNEL", ofByte fun b => .channel ⟨b⟩),
  (ascii "CHANNELINFO", fun v => ofNumbers (fun
    | [n, n'] =>
      some (.channelInfo
        ((SCEChannelInfo.mk (.ofNat n.toNat) (.ofNat n'.toNat) [] [] [] []).setStrings v.strings))
    | _ => none) v),
  (ascii "CHANNELMAP", fun _ => some (.notice (.event (.channelMap ⟨[]⟩)))),
  (ascii "STATUS", ofThreeBytes fun b₀ b₁ b₂ => .status ⟨b₀, b₁, b₂⟩),
  (ascii "RSSI", ofThreeBytes fun b₀ b₁ b₂ => .rssi ⟨b₀, b₁, b₂⟩),
  (ascii "SIGNAL", ofByte fun b => .signal ⟨b⟩),
  (ascii "ANTENNA", ofByte fun b => .antenna ⟨b⟩),
  (ascii "POWER", ofByte fun b => .power ⟨b⟩),
  (ascii "TZINFO", ofNumbers fun
    | [n, n'] => some (.timeZoneInfo ⟨.ofInt n, .ofNat n'.toNat⟩)
    | _ => none),
  (ascii "TIME", ofNumbers fun
    | [n₀, n₁, n₂, n₃, n₄, n₅, n₆, n₇] =>
      some (.time ⟨.ofNat n₀.toNat, .ofNat n₁.toNat, .ofNat n₂.toNat, .ofNat n₃.toNat,
        .ofNat n₄.toNat, .ofNat n₅.toNat, .ofNat n₆.toNat, .ofNat n₇.toNat⟩)
    | _ => none)
]

def ofView (v : View) : Option Message := (readers.lookup v.keyword).bind fun read => read v

theorem ofByte_toNat (event : UInt8 → SCEvent) (b : UInt8) {v : View} (h : v.numbers = [b.toNat])
    : ofByte event v = some (.notice (.event (event b))) := by
  simp [ofByte, ofNumbers, h]

theorem ofThreeBytes_toNat (event : UInt8 → UInt8 → UInt8 → SCEvent) (b₀ b₁ b₂ : UInt8) {v : View}
    (h : v.numbers = [b₀.toNat, b₁.toNat, b₂.toNat])
    : ofThreeBytes event v = some (.notice (.event (event b₀ b₁ b₂))) := by
  simp [ofThreeBytes, ofNumbers, h]

theorem ofView_eq {v : View} {read : View → Option Message}
    (h : readers.lookup v.keyword = some read)
    : ofView v = read v := by
  rw [ofView, h]
  rfl

theorem ofView_event (e : SCEvent) : ofView e.view = some (printed (.notice (.event e))) := by
  cases e with
  | reset | siriusID e | songID e | channelMap e => rfl
  | mute e | channel e | signal e | antenna e | power e =>
    rw [ofView_eq rfl]
    apply ofByte_toNat
    rfl
  | status e | rssi e =>
    rw [ofView_eq rfl]
    apply ofThreeBytes_toNat
    rfl
  | songInfo e =>
    rw [ofView_eq rfl, ofByte_toNat _ e.channel rfl]
    rfl
  | getResult result | setResult result | gain e | timeZoneInfo e | channelInfo e | time e =>
    rw [ofView_eq rfl]
    simp [ofNumbers, SCEvent.view, printed, SCEChannelInfo.strings, SCEChannelInfo.setStrings]

theorem ofView_view (m : Message) : ofView m.view = some m.printed := by
  cases m with
  | reply r => cases r <;> rfl
  | notice n =>
    cases n with
    | startup | shutdown => rfl
    | event e => apply ofView_event

theorem eq_of_line_eq {out name numbers strings : List UInt8}
    (h : out ++ endl = name ++ (numbers ++ (strings ++ endl)))
    : out = name ++ (numbers ++ strings) := by
  rw [← List.append_left_inj endl, h, List.append_assoc, List.append_assoc]

theorem out_eq_text (e : SCEvent) : e.out = e.view.text := by
  cases e with
  | reset | channelMap e | siriusID e => rfl
  | songID e =>
    simp only [SCEvent.out, SCESongID.out, SCEvent.view, View.text, View.numbersPart,
      View.stringsPart, View.tailPart, List.flatMap_nil, List.nil_append, List.append_nil,
      join_singleton]
    rfl
  | songInfo e =>
    have hout : e.out = ascii "SONGINFO,"
        ++ (numbersText [e.channel] ++ quoted (join 0x22 0x2C e.strings)) :=
      eq_of_line_eq (SCESongInfo.format.line_eq e)
    simp only [SCEvent.out, hout, numbersText, SCEvent.view, View.text, View.numbersPart,
      View.tailPart, List.flatMap_cons, List.flatMap_nil, List.append_nil, unsigned_eq_signed,
      List.append_assoc]
    rfl
  | channelInfo e =>
    have hout : e.out = ascii "CHANNELINFO,"
        ++ (numbersText [e.channel, e.genre] ++ quoted (join 0x22 0x2C e.strings)) :=
      eq_of_line_eq (SCEChannelInfo.format.line_eq e)
    simp only [SCEvent.out, hout, numbersText, SCEvent.view, View.text, View.numbersPart,
      View.tailPart, List.flatMap_cons, List.flatMap_nil, List.append_nil, unsigned_eq_signed,
      List.append_assoc]
    rfl
  | getResult result | setResult result | gain e | mute e | channel e | status e | rssi e
  | signal e | antenna e | power e | timeZoneInfo e | time e =>
    simp only [SCEvent.out, SCEGetResult.out, SCESetResult.out, SCEGain.out, SCEMute.out,
      SCEChannel.out, SCEStatus.out, SCERSSI.out, SCESignal.out, SCEAntenna.out, SCEPower.out,
      SCETimeZoneInfo.out, SCETime.out, SCEvent.view, View.text, View.numbersPart,
      View.stringsPart, View.tailPart, List.flatMap_cons, List.flatMap_nil, List.append_nil,
      if_true, unsigned_eq_signed, decimal_eq_signed, List.append_assoc]
    rfl

theorem line_eq (m : Message) : m.line = m.view.text ++ [0x0A] := by
  cases m with
  | reply r => cases r <;> rfl
  | notice n =>
    cases n with
    | startup | shutdown => rfl
    | event e =>
      change e.out ++ endl = _
      rw [out_eq_text]
      rfl

/-- A message whose strings can be told apart in its line, and whose line is one. -/
structure Legible (m : Message) : Prop where
  strings : Readable m.view.strings
  oneLine : ∀ str ∈ m.view.tail, 0x0A ∉ str

theorem newline_notMem {m : Message} (h : Legible m) : 0x0A ∉ m.view.text := by
  apply View.newline_notMem_text m.keyword_plain.2 h.strings.oneLine h.oneLine

theorem legible_reply (r : Reply) : Legible (.reply r) := by
  cases r <;> exact ⟨⟨by decide, by decide⟩, by decide⟩

theorem strings_or_tail (m : Message) : m.view.strings = [] ∨ m.view.tail = none := by
  cases m with
  | reply r => cases r <;> exact .inl rfl
  | notice n =>
    cases n with
    | startup | shutdown => exact .inl rfl
    | event e =>
      cases e with
      | songID | songInfo | channelInfo => exact .inr rfl
      | _ => exact .inl rfl

theorem view_inj {m m' : Message} (h : Legible m') (htext : m.view.text = m'.view.text)
    : m.view = m'.view := by
  apply View.text_inj m.keyword_plain.1 m'.keyword_plain.1 _ h.strings.clean m'.strings_or_tail htext
  intro hkeyword
  have hlookup := m.lookup_keyword
  rw [hkeyword, m'.lookup_keyword] at hlookup
  exact (Option.some.inj hlookup).symm

theorem view_printed (m : Message) : m.printed.view = m.view := by
  unfold printed
  split
  . rfl
  . rfl
  . rfl

theorem printed_inj {m m' : Message} (h : m.view = m'.view) : m.printed = m'.printed := by
  have heq := congrArg ofView h
  rw [ofView_view, ofView_view] at heq
  exact Option.some.inj heq

def stream (ms : List Message) : List UInt8 := ms.flatMap line

theorem stream_eq (ms : List Message)
    : stream ms = terminated 0x0A (ms.map fun m => m.view.text) := by
  induction ms with
  | nil => rfl
  | cons m ms ih =>
    rw [List.map_cons, terminated_cons, ← ih]
    simp [stream, line_eq]

theorem stream_printed (ms : List Message) : stream (ms.map printed) = stream ms := by
  induction ms with
  | nil => rfl
  | cons m ms ih =>
    unfold stream at ih ⊢
    rw [List.map_cons, List.flatMap_cons, List.flatMap_cons, ih, line_eq, line_eq, view_printed]

theorem map_printed_of_map_text {ms ms' : List Message} (h' : ∀ m ∈ ms', Legible m)
    (h : ms.map (fun m => m.view.text) = ms'.map (fun m => m.view.text))
    : ms.map printed = ms'.map printed := by
  induction ms generalizing ms' with
  | nil =>
    rw [List.map_nil, eq_comm, List.map_eq_nil_iff] at h
    rw [h]
  | cons m ms ih =>
    obtain ⟨m', ms', rfl, hm, hms⟩ := List.map_eq_cons_iff.mp h.symm
    rw [List.forall_mem_cons] at h'
    rw [List.map_cons, List.map_cons, printed_inj (view_inj h'.1 hm.symm), ih h'.2 hms.symm]

/--
The stream of lines a client gets is unambiguous: it says all the messages say, in their order, and
nothing else. Of a song only the album is left out, and of a channel map its bits.
-/
theorem stream_inj_iff {ms ms' : List Message} (h : ∀ m ∈ ms, Legible m)
    (h' : ∀ m ∈ ms', Legible m)
    : stream ms = stream ms' ↔ ms.map printed = ms'.map printed := by
  constructor
  . intro hstream
    rw [stream_eq, stream_eq] at hstream
    apply map_printed_of_map_text h'
    apply terminated_inj _ _ hstream
    . simpa using fun m hm => newline_notMem (h m hm)
    . simpa using fun m hm => newline_notMem (h' m hm)
  . intro hprinted
    rw [← stream_printed ms, hprinted, stream_printed]

theorem stream_inj_iff_album
    : stream [.reply .ok, .notice (.event (.gain ⟨-3⟩)),
          .notice (.event (.songInfo ⟨20, ascii "Hey, You", ascii "Pink", ascii "Wall", [], [], [0x2C]⟩))]
        = stream [.reply .ok, .notice (.event (.gain ⟨-3⟩)),
          .notice (.event (.songInfo ⟨20, ascii "Hey, You", ascii "Pink", [], [], [], [0x2C]⟩))] := by
  have hok : Legible (.reply .ok) := legible_reply .ok
  have hgain : Legible (.notice (.event (.gain ⟨-3⟩))) := ⟨⟨by decide, by decide⟩, by decide⟩
  refine (stream_inj_iff ?_ ?_).mpr rfl
  . rw [List.forall_mem_cons, List.forall_mem_cons, List.forall_mem_singleton]
    exact ⟨hok, hgain, ⟨by decide, by decide⟩, by decide⟩
  . rw [List.forall_mem_cons, List.forall_mem_cons, List.forall_mem_singleton]
    exact ⟨hok, hgain, ⟨by decide, by decide⟩, by decide⟩

end Message
