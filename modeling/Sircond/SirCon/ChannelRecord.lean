import Sircond.SirCon.Decoding

/-!
This module contains the channel and song records the radio sends, how they are laid out in a payload,
and that dispatching such a payload notifies exactly what the records say.
-/

open Scp Decoder

namespace Record

structure PascalString where
  bytes : List UInt8
  fits : bytes.length < UInt8.size
  deriving DecidableEq

def PascalString.encode (str : PascalString) : List UInt8 :=
  UInt8.ofNat str.bytes.length :: str.bytes

structure Channel where
  channel : UInt8
  genre : UInt8
  unknown₁ : UInt8
  unknown₂ : UInt8
  unknown₃ : UInt8
  sname : PascalString
  lname : PascalString
  sgenre : PascalString
  lgenre : PascalString
  deriving DecidableEq

def Channel.encode (ch : Channel) : List UInt8 :=
  [ch.channel, ch.genre, ch.unknown₁, ch.unknown₂, ch.unknown₃] ++ ch.sname.encode
    ++ ch.lname.encode ++ ch.sgenre.encode ++ ch.lgenre.encode

def Channel.info (ch : Channel) : SCEChannelInfo where
  channel := ch.channel
  genre := ch.genre
  sname := ch.sname.bytes
  lname := ch.lname.bytes
  sgenre := ch.sgenre.bytes
  lgenre := ch.lgenre.bytes

inductive Field where
  | erase
  | tagged (tag : UInt8) (htag : tag ≠ sitErase) (str : PascalString)
  deriving DecidableEq

def Field.encode : Field → List UInt8
  | .erase => [sitErase]
  | .tagged tag _ str => tag :: str.encode

def Field.value (tag : UInt8) : Field → Option (List UInt8)
  | .erase => none
  | .tagged tag' _ str => if tag' = tag then some str.bytes else none

structure Song where
  fields : List Field
  count : fields.length < UInt8.size
  deriving DecidableEq

def Song.encode (song : Song) : List UInt8 :=
  UInt8.ofNat song.fields.length :: song.fields.flatMap Field.encode

def Song.last (song : Song) (tag : UInt8) : List UInt8 :=
  ((song.fields.filterMap (Field.value tag)).getLast?).getD []

/--
The song of a channel: every string is the one of the last field with its tag.
-/
def Song.info (song : Song) (channel : UInt8) : SCESongInfo where
  channel := channel
  title := song.last sitTitle
  artist := song.last sitArtist
  album := song.last sitAlbum
  composer := song.last sitComposer
  songId := song.last sitSongID
  artistId := song.last sitArtistID

theorem takeString_encode (str : PascalString) (rest : List UInt8)
    : takeString (str.encode ++ rest) = some (str.bytes, rest) := by
  have hlen : (UInt8.ofNat str.bytes.length).toNat = str.bytes.length :=
    UInt8.toNat_ofNat_of_lt' str.fits
  simp only [PascalString.encode, List.cons_append, takeString, hlen]
  rw [if_pos (by simp)]
  simp

theorem takeChannel_encode (ch : Channel) (rest : List UInt8)
    : takeChannel (ch.encode ++ rest) = some (ch.info, rest) := by
  simp only [Channel.encode, List.append_assoc, List.cons_append, List.nil_append, takeChannel,
    List.drop_succ_cons, List.drop_zero]
  rw [takeString_encode, Option.bind_some]
  rw [takeString_encode, Option.bind_some]
  rw [takeString_encode, Option.bind_some]
  rw [takeString_encode, Option.bind_some]
  rfl

def Field.apply (s : SCESongInfo) : Field → SCESongInfo
  | .erase => s
  | .tagged tag _ str => s.setField tag str.bytes

theorem takeFields_encode (fields : List Field) (rest : List UInt8)
    : ∀ s : SCESongInfo,
        takeFields s fields.length (fields.flatMap Field.encode ++ rest)
          =
        some (fields.foldl Field.apply s, rest) := by
  induction fields with
  | nil =>
    intro s
    rfl
  | cons field fields ih =>
    intro s
    rw [List.flatMap_cons, List.append_assoc, List.length_cons, List.foldl_cons]
    cases field with
    | erase =>
      simp only [Field.encode, List.cons_append, List.nil_append, takeFields, if_true]
      apply ih
    | tagged tag htag str =>
      simp only [Field.encode, List.cons_append, takeFields]
      rw [if_neg htag, takeString_encode, Option.bind_some]
      apply ih

def Field.Sets (string : SCESongInfo → List UInt8) (tag : UInt8) : Prop :=
  ∀ (s : SCESongInfo) (t : UInt8) (str : List UInt8),
    string (s.setField t str) = if t = tag then str else string s

/--
A string that is set by the fields with one tag ends up as the last field with this tag says.
-/
theorem foldl_apply {string : SCESongInfo → List UInt8} {tag : UInt8}
    (hsets : Field.Sets string tag) (fields : List Field)
    : ∀ s : SCESongInfo,
        string (fields.foldl Field.apply s)
          =
        ((fields.filterMap (Field.value tag)).getLast?).getD (string s) := by
  induction fields with
  | nil =>
    intro s
    rfl
  | cons field fields ih =>
    intro s
    rw [List.foldl_cons, ih]
    cases field with
    | erase => rfl
    | tagged t ht str =>
      rw [Field.apply, hsets]
      by_cases htag : t = tag
      . simp [Field.value, htag, List.getLast?_cons]
      . simp [Field.value, htag]

theorem sets_fields
    : Field.Sets SCESongInfo.artist sitArtist ∧ Field.Sets SCESongInfo.title sitTitle
        ∧ Field.Sets SCESongInfo.album sitAlbum ∧ Field.Sets SCESongInfo.composer sitComposer
        ∧ Field.Sets SCESongInfo.songId sitSongID ∧ Field.Sets SCESongInfo.artistId sitArtistID := by
  refine ⟨?_, ?_, ?_, ?_, ?_, ?_⟩
  all_goals
    intro s t str
    unfold SCESongInfo.setField
    repeat' split
    all_goals
      first
      | rfl
      | simp_all +decide

theorem channel_setField (s : SCESongInfo) (t : UInt8) (str : List UInt8)
    : (s.setField t str).channel = s.channel := by
  unfold SCESongInfo.setField
  repeat' split
  all_goals rfl

theorem channel_foldl_apply (fields : List Field)
    : ∀ s : SCESongInfo, (fields.foldl Field.apply s).channel = s.channel := by
  induction fields with
  | nil =>
    intro s
    rfl
  | cons field fields ih =>
    intro s
    rw [List.foldl_cons, ih]
    cases field with
    | erase => rfl
    | tagged t ht str => apply channel_setField

theorem foldl_apply_new (song : Song) (channel : UInt8)
    : song.fields.foldl Field.apply (.new channel) = song.info channel := by
  obtain ⟨hartist, htitle, halbum, hcomposer, hsong, hid⟩ := sets_fields
  have hchannel := channel_foldl_apply song.fields (.new channel)
  have hartist := foldl_apply hartist song.fields (.new channel)
  have htitle := foldl_apply htitle song.fields (.new channel)
  have halbum := foldl_apply halbum song.fields (.new channel)
  have hcomposer := foldl_apply hcomposer song.fields (.new channel)
  have hsong := foldl_apply hsong song.fields (.new channel)
  have hid := foldl_apply hid song.fields (.new channel)
  generalize song.fields.foldl Field.apply (.new channel) = s at *
  cases s
  simp only [SCESongInfo.new] at *
  subst hchannel hartist htitle halbum hcomposer hsong hid
  rfl

theorem takeSong_encode (song : Song) (channel : UInt8)
    : takeSong (.new channel) song.encode = some (song.info channel, []) := by
  have hlen : (UInt8.ofNat song.fields.length).toNat = song.fields.length :=
    UInt8.toNat_ofNat_of_lt' song.count
  have hfields := takeFields_encode song.fields [] (.new channel)
  rw [List.append_nil, foldl_apply_new] at hfields
  simp only [Song.encode, takeSong, hlen]
  exact hfields

/--
A response with result code zero that carries the two records.
-/
def response (kind id : UInt8) (ch : Channel) (song : Song) : List UInt8 :=
  [kind, id, 0, 0] ++ (ch.encode ++ song.encode)

/--
The decoder of the channel record stops where the song record begins, and the decoder of the song
record at the end of the payload.
-/
structure Consumed (payload : List UInt8) (after : Memory) (ch : Channel) (song : Song) : Prop where
  channelRecord : (SCEChannelInfo.deserialize 4 (payload.length - 4)).value (memory payload after)
    = (ch.info, ch.encode.length)
  songRecord : ((SCESongInfo.new ch.channel).deserialize (4 + ch.encode.length)
      (payload.length - (4 + ch.encode.length))).value (memory payload after)
    = (song.info ch.channel, song.encode.length)
  whole : 4 + ch.encode.length + song.encode.length = payload.length

section Response

variable (kind id : UInt8) (ch : Channel) (song : Song) (after : Memory)

theorem length_response
    : (response kind id ch song).length = 4 + ch.encode.length + song.encode.length := by
  simp only [response, List.length_append, List.length_cons, List.length_nil]
  omega

theorem drop_response : (response kind id ch song).drop 4 = ch.encode ++ song.encode := rfl

theorem consumed_response : Consumed (response kind id ch song) after ch song := by
  have hlen := length_response kind id ch song
  have hdrop := drop_response kind id ch song
  generalize response kind id ch song = payload at hlen hdrop
  have hchannel : Decodes payload after 4 (SCEChannelInfo.deserialize 4 (payload.length - 4))
      (takeChannel (payload.drop 4)) := decodes_channel (by omega)
  have hrest : payload.drop (4 + ch.encode.length) = song.encode := by
    rw [← List.drop_drop, hdrop, List.drop_left]
  have hsong : Decodes payload after (4 + ch.encode.length)
      ((SCESongInfo.new ch.channel).deserialize (4 + ch.encode.length)
        (payload.length - (4 + ch.encode.length)))
      (takeSong (.new ch.channel) (payload.drop (4 + ch.encode.length))) :=
    decodes_song (by omega) _
  rw [hdrop, takeChannel_encode] at hchannel
  rw [hrest, takeSong_encode] at hsong
  obtain ⟨-, n, hvalue, hle, htail⟩ := hchannel
  obtain ⟨-, m, hvalue', hle', htail'⟩ := hsong
  have hn : n = ch.encode.length := by
    have := congrArg List.length htail
    rw [List.length_drop] at this
    omega
  have hm : m = song.encode.length := by
    have := congrArg List.length htail'
    rw [List.length_drop, List.length_nil] at this
    omega
  rw [hn] at hvalue
  rw [hm] at hvalue'
  exact ⟨hvalue, hvalue', hlen.symm⟩

theorem value_decodeChannelAndSong_response
    : (Cache.decodeChannelAndSong 0 (response kind id ch song).length).value
          (memory (response kind id ch song) after)
        =
      (ch.info, song.info ch.channel) := by
  obtain ⟨hchannel, hsong, hall⟩ := consumed_response kind id ch song after
  generalize response kind id ch song = payload at *
  unfold Cache.decodeChannelAndSong
  simp only [Logged.value_bind, Logged.value_pure, Nat.zero_add]
  rw [value_sub (by omega), hchannel]
  dsimp only
  rw [value_sub (by omega)]
  have hinfo : ch.info.channel = ch.channel := rfl
  rw [hinfo, hsong]

theorem channelAndSongFit_encode : ChannelAndSongFit (ch.encode ++ song.encode) := by
  unfold ChannelAndSongFit
  rw [takeChannel_encode, Option.bind_some]
  have hinfo : ch.info.channel = ch.channel := rfl
  dsimp only
  rw [hinfo, takeSong_encode]
  rfl

end Response

section Dispatch

variable (ch : Channel) (song : Song) (c : Cache) (after : Memory)

theorem value_dispatch_getResponse
    : (c.dispatch 0 (response msgGetResp scpGetChannelInfo ch song).length).value
          (memory (response msgGetResp scpGetChannelInfo ch song) after)
        =
      (c, [.getResult 0, .channelInfo ch.info, .songInfo (song.info ch.channel)]) := by
  have hkind : memory (response msgGetResp scpGetChannelInfo ch song) after 0 = msgGetResp := rfl
  have hid : memory (response msgGetResp scpGetChannelInfo ch song) after 1 = scpGetChannelInfo :=
    rfl
  have hrecords := value_decodeChannelAndSong_response msgGetResp scpGetChannelInfo ch song after
  unfold Cache.dispatch
  rw [Logged.value_bind, value_read, hkind, if_neg (by decide), if_pos rfl]
  rw [Cache.value_dispatchGetResponse, if_pos ⟨rfl, rfl⟩, hid]
  have hget : ∀ len, Cache.getResponse scpGetChannelInfo c 0 len =
      Cache.decodeChannelAndSong 0 len >>= fun r =>
        pure (c, [.channelInfo r.1, .songInfo r.2]) := fun _ => rfl
  rw [hget, Logged.value_bind, hrecords]
  rfl

theorem value_dispatch_setResponse
    : (c.dispatch 0 (response msgSetResp scpSetChannel ch song).length).value
          (memory (response msgSetResp scpSetChannel ch song) after)
        =
      ({ c with currChannel := ch.channel },
        [.setResult 0, .channelInfo ch.info, .songInfo (song.info ch.channel)]) := by
  have hkind : memory (response msgSetResp scpSetChannel ch song) after 0 = msgSetResp := rfl
  have hchannel : memory (response msgSetResp scpSetChannel ch song) after 4 = ch.channel := rfl
  have hlen : 4 < (response msgSetResp scpSetChannel ch song).length := by
    rw [length_response]
    simp [Channel.encode]
    omega
  have hrecords := value_decodeChannelAndSong_response msgSetResp scpSetChannel ch song after
  unfold Cache.dispatch
  rw [Logged.value_bind, value_read, hkind, if_pos rfl]
  rw [Cache.value_dispatchSetResponse, if_pos ⟨⟨rfl, rfl⟩, rfl, hlen⟩, hrecords, hchannel]

end Dispatch

/--
A channel record followed by a song record is decoded as it was sent: dispatching it as a response to
`GET_CHANNELINFO` or `SET_CHANNEL` notifies the channel and then the song playing on it, whose strings
are those of the last field with the matching tag, and reads the payload to its end and no further.
-/
theorem dispatch_channelAndSong (ch : Channel) (song : Song) (c : Cache) (after : Memory)
    : ((c.dispatch 0 (response msgGetResp scpGetChannelInfo ch song).length).value
            (memory (response msgGetResp scpGetChannelInfo ch song) after)
          = (c, [.getResult 0, .channelInfo ch.info, .songInfo (song.info ch.channel)])
        ∧ Inside (response msgGetResp scpGetChannelInfo ch song) after
            (c.dispatch 0 (response msgGetResp scpGetChannelInfo ch song).length)
        ∧ Consumed (response msgGetResp scpGetChannelInfo ch song) after ch song)
      ∧ ((c.dispatch 0 (response msgSetResp scpSetChannel ch song).length).value
            (memory (response msgSetResp scpSetChannel ch song) after)
          = ({ c with currChannel := ch.channel },
              [.setResult 0, .channelInfo ch.info, .songInfo (song.info ch.channel)])
        ∧ Inside (response msgSetResp scpSetChannel ch song) after
            (c.dispatch 0 (response msgSetResp scpSetChannel ch song).length)
        ∧ Consumed (response msgSetResp scpSetChannel ch song) after ch song) := by
  refine ⟨⟨?_, ?_, ?_⟩, ?_, ?_, ?_⟩
  . apply value_dispatch_getResponse
  . rw [Cache.inside_dispatch]
    intro _ _
    apply channelAndSongFit_encode
  . apply consumed_response
  . apply value_dispatch_setResponse
  . rw [Cache.inside_dispatch]
    intro _ _ _
    right
    apply channelAndSongFit_encode
  . apply consumed_response

end Record
