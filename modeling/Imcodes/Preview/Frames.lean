import Imcodes.Encodings.Hex
import Imcodes.Encodings.Utf8

/-!
# The frames of a preview

Bodies of requests and responses travel in frames with the id of the request, data of WebSockets in
frames with an id of 16 bytes. The first byte tells which frame it is.

* `parsePreviewBinaryFrame_pack`, `parsePreviewWsFrame_pack` — a frame is parsed to what was packed.
* `pack_parsePreviewBinaryFrame`, `pack_parsePreviewWsFrame` — what was parsed is packed again.
* `frames_roundtrip` — both, and that no parser takes a frame of the other kind.
-/

namespace Imcodes.Preview

inductive PreviewBinaryFrameType
  | requestBody
  | responseBody
  | wsData
  deriving DecidableEq

/-- `PREVIEW_BINARY_FRAME` -/
def PreviewBinaryFrameType.tag : PreviewBinaryFrameType → UInt8
  | .requestBody => 0x02
  | .responseBody => 0x03
  | .wsData => 0x04

structure PreviewBinaryFrame where
  frameType : PreviewBinaryFrameType
  requestId : List Char
  payload : List UInt8
  deriving DecidableEq

structure PreviewWsFrame where
  wsId : List Char
  isBinary : Bool
  payload : List UInt8
  deriving DecidableEq

/-- `writeUInt16BE` throws when the length of the id is out of range. -/
def packPreviewBinaryFrame (frameType : PreviewBinaryFrameType) (requestId : List Char)
    (payload : List UInt8) : Option (List UInt8) :=
  let idBytes := Utf8.encode requestId
  if idBytes.length > 0xFFFF then none
  else
    some (frameType.tag :: UInt8.ofNat (idBytes.length / 0x100) ::
      UInt8.ofNat (idBytes.length % 0x100) :: idBytes ++ payload)

/-- Returns null for 0x04 (WS_DATA) frames intentionally. -/
def parsePreviewBinaryFrame : List UInt8 → Option PreviewBinaryFrame
  | tag :: high :: low :: rest =>
    let frameType? :=
      if tag = PreviewBinaryFrameType.requestBody.tag then some .requestBody
      else if tag = PreviewBinaryFrameType.responseBody.tag then some .responseBody
      else none
    let idLength := high.toNat * 0x100 + low.toNat
    frameType?.bind fun frameType =>
      if rest.length < idLength then none
      else
        some
          { frameType
            requestId := Utf8.decode (rest.take idLength)
            payload := rest.drop idLength }
  | _ => none

/-- Strip dashes to handle UUID format. -/
def stripDashes (wsId : List Char) : List Char :=
  wsId.filter (· ≠ '-')

/-- Pack a WS tunnel data frame; what the memory of the header held stays where no id is written. -/
def packPreviewWsFrame (memory : Vector UInt8 16) (wsId : List Char) (isBinary : Bool)
    (payload : List UInt8) : List UInt8 :=
  let idBuf := (Hex.decode (stripDashes wsId)).take 16
  PreviewBinaryFrameType.wsData.tag :: idBuf ++ memory.toList.drop idBuf.length ++
    (if isBinary then 1 else 0) :: payload

/-- Parse a WS tunnel data frame. -/
def parsePreviewWsFrame (data : List UInt8) : Option PreviewWsFrame :=
  if data.length < 18 ∨ data.head? ≠ some PreviewBinaryFrameType.wsData.tag then none
  else
    some
      { wsId := Hex.encode ((data.drop 1).take 16)
        isBinary := (data.getD 17 0) &&& 0x01 ≠ 0
        payload := data.drop 18 }

variable {frameType : PreviewBinaryFrameType} {requestId wsId : List Char}
variable {payload data again : List UInt8} {memory : Vector UInt8 16} {isBinary : Bool}

/-! ## Frames with the id of a request -/

theorem packPreviewBinaryFrame_eq (h : (Utf8.encode requestId).length < 0x10000) :
    packPreviewBinaryFrame frameType requestId payload =
      some (frameType.tag :: UInt8.ofNat ((Utf8.encode requestId).length / 0x100) ::
        UInt8.ofNat ((Utf8.encode requestId).length % 0x100) :: Utf8.encode requestId ++ payload) :=
  if_neg (by omega)

theorem length_eq_bytes {n : ℕ} (h : n < 0x10000) :
    (UInt8.ofNat (n / 0x100)).toNat * 0x100 + (UInt8.ofNat (n % 0x100)).toNat = n := by
  have hhigh : (UInt8.ofNat (n / 0x100)).toNat = n / 0x100 := Utf8.toNat_ofNat (by omega)
  have hlow : (UInt8.ofNat (n % 0x100)).toNat = n % 0x100 := Utf8.toNat_ofNat (by omega)
  rw [hhigh, hlow]
  omega

/-- **What was packed is parsed.** -/
theorem parsePreviewBinaryFrame_pack (hframe : frameType ≠ .wsData)
    (h : packPreviewBinaryFrame frameType requestId payload = some data) :
    parsePreviewBinaryFrame data = some { frameType, requestId, payload } ∧
      parsePreviewWsFrame data = none := by
  unfold packPreviewBinaryFrame at h
  dsimp only at h
  split at h
  · cases h
  · rename_i hlength
    obtain rfl := Option.some.inj h
    have hshort : ¬ (Utf8.encode requestId ++ payload).length < (Utf8.encode requestId).length := by
      rw [List.length_append]
      omega
    rw [List.cons_append, List.cons_append, List.cons_append, parsePreviewBinaryFrame,
      length_eq_bytes (by omega)]
    simp only [if_neg hshort, List.take_left, List.drop_left, Utf8.decode_encode]
    cases frameType with
    | requestBody => exact ⟨rfl, if_pos (Or.inr (by rw [List.head?_cons]; decide))⟩
    | responseBody => exact ⟨rfl, if_pos (Or.inr (by rw [List.head?_cons]; decide))⟩
    | wsData => exact absurd rfl hframe

/-- What an accepted frame is made of. -/
theorem eq_of_parsePreviewBinaryFrame {frame : PreviewBinaryFrame}
    (h : parsePreviewBinaryFrame data = some frame) :
    frame.frameType ≠ .wsData ∧ ∃ high low idBytes,
      data = frame.frameType.tag :: high :: low :: idBytes ++ frame.payload ∧
        idBytes.length = high.toNat * 0x100 + low.toNat ∧
        frame.requestId = Utf8.decode idBytes := by
  unfold parsePreviewBinaryFrame at h
  split at h
  · rename_i tag high low rest
    obtain ⟨frameType, htype, hframe⟩ := Option.bind_eq_some_iff.1 h
    have htag : frameType ≠ .wsData ∧ tag = frameType.tag := by
      split at htype
      · rename_i heq
        obtain rfl := Option.some.inj htype
        exact ⟨nofun, heq⟩
      · split at htype
        · rename_i heq
          obtain rfl := Option.some.inj htype
          exact ⟨nofun, heq⟩
        · cases htype
    split at hframe
    · cases hframe
    · rename_i hlength
      obtain rfl := Option.some.inj hframe
      refine ⟨htag.1, high, low, rest.take (high.toNat * 0x100 + low.toNat), ?_, ?_, rfl⟩
      · rw [htag.2, List.cons_append, List.cons_append, List.cons_append, List.take_append_drop]
      · rw [List.length_take, Nat.min_eq_left (Nat.le_of_not_lt hlength)]
  · cases h

/-- **What was parsed is packed again**, to the same bytes when the id was UTF-8. -/
theorem pack_parsePreviewBinaryFrame {frame : PreviewBinaryFrame}
    (h : parsePreviewBinaryFrame data = some frame)
    (hlength : (Utf8.encode frame.requestId).length < 0x10000) :
    ∃ again, packPreviewBinaryFrame frame.frameType frame.requestId frame.payload = some again ∧
      parsePreviewBinaryFrame again = some frame ∧
      ((∃ id, data.drop 3 = Utf8.encode id ++ frame.payload) → again = data) := by
  obtain ⟨hframe, high, low, idBytes, hdata, hbytes, hid⟩ := eq_of_parsePreviewBinaryFrame h
  have hpack := @packPreviewBinaryFrame_eq frame.frameType _ frame.payload hlength
  refine ⟨_, hpack, (parsePreviewBinaryFrame_pack hframe hpack).1, ?_⟩
  rintro ⟨id, hvalid⟩
  subst hdata
  have hsame : idBytes = Utf8.encode id := List.append_cancel_right hvalid
  have hdecoded : frame.requestId = id := by rw [hid, hsame, Utf8.decode_encode]
  have hhigh : high.toNat < 0x100 := high.toNat_lt
  have hlow : low.toNat < 0x100 := low.toNat_lt
  rw [hdecoded, ← hsame, hbytes,
    show (high.toNat * 0x100 + low.toNat) / 0x100 = high.toNat by omega,
    show (high.toNat * 0x100 + low.toNat) % 0x100 = low.toNat by omega, UInt8.ofNat_toNat,
    UInt8.ofNat_toNat]

/-! ## Frames of a WebSocket -/

/-- An id of 32 hexadecimal digits, with or without dashes. -/
def IsHexId (wsId : List Char) : Prop :=
  (stripDashes wsId).length = 32 ∧ ∀ c ∈ stripDashes wsId, (Hex.digit? c).isSome

theorem digit_ne_dash (n : ℕ) : Hex.digit n ≠ '-' := Hex.digit_ne (by decide)

theorem stripDashes_encode (bytes : List UInt8) :
    stripDashes (Hex.encode bytes) = Hex.encode bytes := by
  refine List.filter_eq_self.2 fun c hc => ?_
  obtain ⟨byte, -, hmem⟩ := List.mem_flatMap.1 hc
  have hdash : c ≠ '-' := by
    rcases List.mem_pair.1 hmem with rfl | rfl
    all_goals exact digit_ne_dash _
  simpa using hdash

theorem packPreviewWsFrame_eq {id : List UInt8} (hid : id.length = 16)
    (hdecode : Hex.decode (stripDashes wsId) = id) :
    packPreviewWsFrame memory wsId isBinary payload =
      PreviewBinaryFrameType.wsData.tag :: id ++ (if isBinary then 1 else 0) :: payload := by
  have hmemory : memory.toList.drop 16 = [] := List.drop_eq_nil_of_le (by simp)
  rw [packPreviewWsFrame, hdecode, List.take_of_length_le (by omega), hid, hmemory]
  simp

theorem parsePreviewWsFrame_eq {id : List UInt8} {flags : UInt8} (hid : id.length = 16) :
    parsePreviewWsFrame (PreviewBinaryFrameType.wsData.tag :: id ++ flags :: payload) =
      some { wsId := Hex.encode id, isBinary := flags &&& 0x01 ≠ 0, payload } := by
  have hlength : ¬ (PreviewBinaryFrameType.wsData.tag :: id ++ flags :: payload).length < 18 := by
    simp only [List.length_append, List.length_cons]
    omega
  rw [parsePreviewWsFrame, if_neg (not_or.2 ⟨hlength, fun h => h rfl⟩)]
  have hflags :
      (PreviewBinaryFrameType.wsData.tag :: id ++ flags :: payload).getD 17 0 = flags := by
    rw [List.cons_append, List.getD_eq_getElem?_getD, List.getElem?_cons_succ,
      List.getElem?_append_right (by omega), hid]
    rfl
  have hpayload : (id ++ flags :: payload).drop 17 = payload := by
    rw [List.append_cons]
    exact List.drop_left' (by simp [hid])
  rw [hflags, List.cons_append, List.drop_succ_cons, List.drop_succ_cons, hpayload, List.drop_zero,
    List.take_left' hid]

theorem flag_eq (isBinary : Bool) :
    decide ((if isBinary then (1 : UInt8) else 0) &&& 0x01 ≠ 0) = isBinary := by
  cases isBinary <;> decide

/-- **What was packed is parsed**, up to the dashes and the case of the id. -/
theorem parsePreviewWsFrame_pack (h : IsHexId wsId) :
    parsePreviewWsFrame (packPreviewWsFrame memory wsId isBinary payload) =
      some { wsId := (stripDashes wsId).map Char.toLower, isBinary, payload } := by
  have hencode := Hex.encode_decode h.2 (by rw [h.1])
  have hid : (Hex.decode (stripDashes wsId)).length = 16 := by
    have hlength := congrArg List.length hencode
    rw [Hex.length_encode, List.length_map, h.1] at hlength
    omega
  rw [packPreviewWsFrame_eq hid rfl, parsePreviewWsFrame_eq hid, hencode, flag_eq]

/-- A frame of a WebSocket is no frame of a request. -/
theorem parsePreviewBinaryFrame_packWs :
    parsePreviewBinaryFrame (packPreviewWsFrame memory wsId isBinary payload) = none := by
  rw [packPreviewWsFrame, List.cons_append, List.cons_append]
  generalize (_ : List UInt8) ++ _ = rest
  unfold parsePreviewBinaryFrame
  split
  · rename_i heq
    obtain ⟨rfl, -⟩ := List.cons.inj heq
    rfl
  · rfl

/-- What an accepted frame of a WebSocket is made of. -/
theorem eq_of_parsePreviewWsFrame {frame : PreviewWsFrame}
    (h : parsePreviewWsFrame data = some frame) :
    ∃ id flags, id.length = 16 ∧
      data = PreviewBinaryFrameType.wsData.tag :: id ++ flags :: frame.payload ∧
      frame.wsId = Hex.encode id ∧ frame.isBinary = decide (flags &&& 0x01 ≠ 0) := by
  have hsplit := h
  unfold parsePreviewWsFrame at hsplit
  split at hsplit
  · cases hsplit
  · rename_i hdata
    obtain ⟨hlength, htag⟩ := not_or.1 hdata
    obtain ⟨tag, rest, rfl⟩ := List.exists_cons_of_length_pos (show 0 < data.length by omega)
    obtain rfl := Option.some.inj (not_not.1 htag)
    rw [List.length_cons] at hlength
    have hid : (rest.take 16).length = 16 := by
      rw [List.length_take]
      omega
    obtain ⟨flags, payload, hrest⟩ := List.exists_cons_of_length_pos
      (show 0 < (rest.drop 16).length by rw [List.length_drop]; omega)
    have hwhole : rest = rest.take 16 ++ flags :: payload := by
      rw [← hrest, List.take_append_drop]
    rw [hwhole, ← List.cons_append, parsePreviewWsFrame_eq hid] at h
    obtain rfl := Option.some.inj h
    exact ⟨rest.take 16, flags, hid, by rw [List.cons_append, ← hwhole], rfl, rfl⟩

/-- **What was parsed is packed again**, to the same bytes when the unused flag bits were zero. -/
theorem pack_parsePreviewWsFrame {frame : PreviewWsFrame}
    (h : parsePreviewWsFrame data = some frame) :
    parsePreviewWsFrame (packPreviewWsFrame memory frame.wsId frame.isBinary frame.payload) =
        some frame ∧
      ((data.getD 17 0).toNat < 2 →
        packPreviewWsFrame memory frame.wsId frame.isBinary frame.payload = data) := by
  obtain ⟨id, flags, hid, hdata, hwsId, hflags⟩ := eq_of_parsePreviewWsFrame h
  have hdecode : Hex.decode (stripDashes frame.wsId) = id := by
    rw [hwsId, stripDashes_encode, Hex.decode_encode]
  rw [packPreviewWsFrame_eq hid hdecode, parsePreviewWsFrame_eq hid, flag_eq, ← hwsId]
  refine ⟨rfl, fun hbits => ?_⟩
  have hlast : data.getD 17 0 = flags := by
    rw [hdata, List.cons_append, List.getD_eq_getElem?_getD, List.getElem?_cons_succ,
      List.getElem?_append_right (by omega), hid]
    rfl
  rw [hlast] at hbits
  rw [hdata, hflags]
  have hcases : flags = 0 ∨ flags = 1 := by
    rcases Nat.lt_succ_iff_lt_or_eq.1 hbits with hzero | hone
    · exact Or.inl (UInt8.toNat_inj.1 (Nat.lt_one_iff.1 hzero))
    · exact Or.inr (UInt8.toNat_inj.1 hone)
  rcases hcases with rfl | rfl <;> rfl

/-- **Frames are parsed to what was packed**, are packed again to what was parsed, and none is taken
for a frame of the other kind.  A request id is a text of whole characters: half of a surrogate pair
is no character, is encoded as U+FFFD, and comes back as that. -/
theorem frames_roundtrip :
    (∀ frameType requestId payload, frameType ≠ .wsData →
      (Utf8.encode requestId).length < 0x10000 →
      ∃ data, packPreviewBinaryFrame frameType requestId payload = some data ∧
        parsePreviewBinaryFrame data = some { frameType, requestId, payload } ∧
        parsePreviewWsFrame data = none) ∧
    (∀ memory wsId isBinary payload, IsHexId wsId →
      parsePreviewWsFrame (packPreviewWsFrame memory wsId isBinary payload) =
          some { wsId := (stripDashes wsId).map Char.toLower, isBinary, payload } ∧
        parsePreviewBinaryFrame (packPreviewWsFrame memory wsId isBinary payload) = none) ∧
    (∀ data frame, parsePreviewBinaryFrame data = some frame →
      (Utf8.encode frame.requestId).length < 0x10000 →
      ∃ again, packPreviewBinaryFrame frame.frameType frame.requestId frame.payload = some again ∧
        parsePreviewBinaryFrame again = some frame ∧
        ((∃ id, data.drop 3 = Utf8.encode id ++ frame.payload) → again = data)) ∧
    ∀ memory data frame, parsePreviewWsFrame data = some frame →
      parsePreviewWsFrame (packPreviewWsFrame memory frame.wsId frame.isBinary frame.payload) =
          some frame ∧
        ((data.getD 17 0).toNat < 2 →
          packPreviewWsFrame memory frame.wsId frame.isBinary frame.payload = data) := by
  refine ⟨fun frameType requestId payload hframe hlength => ?_,
    fun memory wsId isBinary payload h =>
      ⟨parsePreviewWsFrame_pack h, parsePreviewBinaryFrame_packWs⟩,
    fun data frame h hlength => pack_parsePreviewBinaryFrame h hlength,
    fun memory data frame h => pack_parsePreviewWsFrame h⟩
  have hpack := @packPreviewBinaryFrame_eq frameType _ payload hlength
  exact ⟨_, hpack, parsePreviewBinaryFrame_pack hframe hpack⟩

/-- A body, and data for an id with dashes and digits of both cases, there and back. -/
theorem frames_roundtrip_samples :
    let wsId := "01234567-89AB-cdef-0123-456789abcdef".toList
    let memory := Vector.replicate 16 0
    (∃ data, packPreviewBinaryFrame .responseBody "é".toList [4, 0] = some data ∧
      parsePreviewBinaryFrame data =
        some { frameType := .responseBody, requestId := "é".toList, payload := [4, 0] } ∧
      parsePreviewWsFrame data = none) ∧
    (parsePreviewWsFrame (packPreviewWsFrame memory wsId true [2, 0, 0]) =
        some { wsId := (stripDashes wsId).map Char.toLower, isBinary := true
               payload := [2, 0, 0] } ∧
      parsePreviewBinaryFrame (packPreviewWsFrame memory wsId true [2, 0, 0]) = none) ∧
    (∃ again, packPreviewBinaryFrame .requestBody ['a'] [7] = some again ∧
      parsePreviewBinaryFrame again =
        some { frameType := .requestBody, requestId := ['a'], payload := [7] } ∧
      ((∃ id, [0x61, 7] = Utf8.encode id ++ [7]) → again = [2, 0, 1, 0x61, 7])) ∧
    parsePreviewWsFrame (packPreviewWsFrame memory (Hex.encode (List.replicate 16 9)) true [8]) =
        some { wsId := Hex.encode (List.replicate 16 9), isBinary := true, payload := [8] } ∧
      packPreviewWsFrame memory (Hex.encode (List.replicate 16 9)) true [8] =
        4 :: List.replicate 16 9 ++ [1, 8] :=
  ⟨frames_roundtrip.1 .responseBody "é".toList [4, 0] (by decide +kernel) (by decide +kernel),
    frames_roundtrip.2.1 (Vector.replicate 16 0) "01234567-89AB-cdef-0123-456789abcdef".toList true
      [2, 0, 0] ⟨by decide +kernel, List.all_eq_true.1 (by decide +kernel)⟩,
    frames_roundtrip.2.2.1 [2, 0, 1, 0x61, 7]
      { frameType := .requestBody, requestId := ['a'], payload := [7] } (by decide +kernel)
      (by decide +kernel),
    And.imp_right (fun hsame => hsame (by decide +kernel))
      (frames_roundtrip.2.2.2 (Vector.replicate 16 0) (4 :: List.replicate 16 9 ++ [1, 8])
        { wsId := Hex.encode (List.replicate 16 9), isBinary := true, payload := [8] }
        (by decide +kernel))⟩

/-- A frame whose id is bytes in the middle of a character. -/
def brokenId (count : ℕ) : List UInt8 :=
  PreviewBinaryFrameType.requestBody.tag :: UInt8.ofNat (count / 0x100) ::
    UInt8.ofNat (count % 0x100) :: List.replicate count 0x80

theorem parsePreviewBinaryFrame_brokenId {count : ℕ} (h : count < 0x10000) :
    parsePreviewBinaryFrame (brokenId count) =
      some { frameType := .requestBody
             requestId := List.replicate count Utf8.replacement
             payload := [] } := by
  have hdecode : Utf8.decode (List.replicate count 0x80) =
      List.replicate count Utf8.replacement := by
    have hall : ∀ byte ∈ List.replicate count (0x80 : UInt8), Utf8.IsContinuation byte :=
      fun byte hbyte => by
        rw [List.eq_of_mem_replicate hbyte]
        exact ⟨by decide, by decide⟩
    have hrun := Utf8.run_continuations [] hall
    rw [List.append_nil, List.length_replicate] at hrun
    rw [Utf8.decode, hrun]
    exact List.append_nil _
  have htake : (List.replicate count (0x80 : UInt8)).take count = List.replicate count 0x80 :=
    List.take_of_length_le (by simp)
  have hdrop : (List.replicate count (0x80 : UInt8)).drop count = [] :=
    List.drop_eq_nil_of_le (by simp)
  rw [brokenId, parsePreviewBinaryFrame, length_eq_bytes h]
  simp only [List.length_replicate, htake, hdrop, hdecode, Nat.lt_irrefl, if_false]
  rfl

theorem packPreviewBinaryFrame_broken {count : ℕ} (h : 0xFFFF < 3 * count) :
    packPreviewBinaryFrame frameType (List.replicate count Utf8.replacement) payload = none := by
  have hlength (n : ℕ) : (Utf8.encode (List.replicate n Utf8.replacement)).length = 3 * n := by
    induction n with
    | zero => rfl
    | succ n ih =>
      rw [List.replicate_succ, Utf8.encode_cons, List.length_append, ih,
        show (String.utf8EncodeChar Utf8.replacement).length = 3 by decide]
      omega
  exact if_pos (by rw [hlength]; exact h)

/-- Frames of the third kind are not parsed, and an id that is no UTF-8 can grow too long to be
packed again. -/
theorem not_frames_roundtrip :
    (¬ ∀ frameType requestId payload data,
      packPreviewBinaryFrame frameType requestId payload = some data →
        parsePreviewBinaryFrame data = some { frameType, requestId, payload }) ∧
    ¬ ∀ data frame, parsePreviewBinaryFrame data = some frame →
      ∃ again, packPreviewBinaryFrame frame.frameType frame.requestId frame.payload = some again ∧
        parsePreviewBinaryFrame again = some frame := by
  constructor
  · intro h
    exact absurd (h .wsData [] [] [4, 0, 0] rfl) (by decide)
  · intro h
    obtain ⟨again, hagain, -⟩ :=
      h (brokenId 21846) _ (parsePreviewBinaryFrame_brokenId (by omega))
    rw [packPreviewBinaryFrame_broken (by omega)] at hagain
    cases hagain

end Imcodes.Preview
