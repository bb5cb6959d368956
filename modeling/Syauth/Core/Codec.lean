import Syauth.Core.Crypto

/-! # The frame codec is exact

Which byte strings `Frame::decode` accepts, that it inverts `Frame::encode` on both
sides, and what a failing `encode` leaves in the buffer of its caller.
-/

namespace Syauth

def maxFrameLen : Nat := minFrameLen + maxPayloadLen

/-- Two adjacent slices of a list are one slice. -/
theorem slice_append_slice (input : Bytes) (offset m n : Nat) :
    (input.drop offset).take m ++ (input.drop (offset + m)).take n =
      (input.drop offset).take (m + n) := by
  rw [List.take_add, List.drop_drop]

namespace Frame

/-! ## Writing into the buffer of the caller -/

/-- A call that writes into the `Vec` of its caller; an error does not undo the writes. -/
abbrev Encoder := ExceptT FrameError (StateM Bytes)

def extendFromSlice (bytes : Bytes) : Encoder Unit :=
  modify fun buf => buf ++ bytes

/-- `Frame::encode` statement by statement. -/
def encodeInto (frame : Frame) : Encoder Unit := do
  if frame.payload.length > maxPayloadLen then
    throw .badLength
  extendFromSlice [frame.version]
  extendFromSlice frame.nonce.val
  extendFromSlice frame.payload
  extendFromSlice frame.tag.val

/-- The result of the call and the buffer after it. -/
def runEncode (frame : Frame) (buf : Bytes) : Except FrameError Unit × Bytes :=
  (encodeInto frame).run.run buf

theorem runEncode_of_long {frame : Frame} (hlong : maxPayloadLen < frame.payload.length)
    (buf : Bytes) : runEncode frame buf = (.error .badLength, buf) := by
  unfold runEncode encodeInto
  rw [if_pos hlong]
  rfl

theorem runEncode_of_fits {frame : Frame} (hfits : frame.payload.length ≤ maxPayloadLen)
    (buf : Bytes) :
    runEncode frame buf =
      (.ok (), buf ++ frame.version :: (frame.nonce.val ++ frame.payload ++ frame.tag.val)) := by
  have hshape : buf ++ frame.version :: (frame.nonce.val ++ frame.payload ++ frame.tag.val) =
      buf ++ [frame.version] ++ frame.nonce.val ++ frame.payload ++ frame.tag.val := by
    simp
  unfold runEncode encodeInto
  rw [if_neg (Nat.not_lt.mpr hfits), hshape]
  rfl

/-- The buffer form agrees with `encode`, and keeps the buffer where that fails. -/
theorem runEncode_eq (frame : Frame) (buf : Bytes) :
    runEncode frame buf =
      match encode frame buf with
      | .ok out => (.ok (), out)
      | .error err => (.error err, buf) := by
  unfold encode
  by_cases hlong : frame.payload.length > maxPayloadLen
  · rw [if_pos hlong]
    exact runEncode_of_long hlong buf
  · rw [if_neg hlong]
    exact runEncode_of_fits (Nat.le_of_not_lt hlong) buf

/-! ## What `decode` answers -/

theorem decode_of_short {input : Bytes} (hshort : input.length < minFrameLen) :
    decode input = .error (.tooShort minFrameLen input.length) := by
  unfold decode
  rw [dif_pos hshort]

theorem decode_of_badVersion {version : UInt8} {rest : Bytes}
    (hlen : minFrameLen ≤ (version :: rest).length) (hversion : version ≠ wireVersionV1) :
    decode (version :: rest) = .error (.badVersion version) := by
  unfold decode
  rw [dif_neg (Nat.not_lt.mpr hlen)]
  exact if_pos hversion

theorem decode_of_long {rest : Bytes} (hlong : maxFrameLen < (wireVersionV1 :: rest).length) :
    decode (wireVersionV1 :: rest) = .error .badLength := by
  have hmin : minFrameLen ≤ (wireVersionV1 :: rest).length := by
    unfold maxFrameLen at hlong
    omega
  have hpayload : (wireVersionV1 :: rest).length - minFrameLen > maxPayloadLen := by
    unfold maxFrameLen at hlong
    omega
  unfold decode
  rw [dif_neg (Nat.not_lt.mpr hmin)]
  exact (if_neg (not_not.mpr rfl)).trans (if_pos hpayload)

/-- A string of an accepted length that starts with the version byte decodes to a frame
whose fields are its consecutive slices. -/
theorem decode_of_accepted {rest : Bytes}
    (hmin : minFrameLen ≤ (wireVersionV1 :: rest).length)
    (hmax : (wireVersionV1 :: rest).length ≤ maxFrameLen) :
    ∃ frame, decode (wireVersionV1 :: rest) = .ok frame ∧ frame.version = wireVersionV1 ∧
      frame.payload.length ≤ maxPayloadLen ∧
      frame.nonce.val ++ frame.payload ++ frame.tag.val = rest := by
  have hpayload : ¬ (wireVersionV1 :: rest).length - minFrameLen > maxPayloadLen := by
    unfold maxFrameLen at hmax
    omega
  unfold decode
  rw [dif_neg (Nat.not_lt.mpr hmin)]
  refine ⟨_, (if_neg (not_not.mpr rfl)).trans (if_neg hpayload), rfl, ?_, ?_⟩
  · simp only [List.length_take]
    omega
  · have hnonce : nonceOffset + nonceLen = payloadOffset := rfl
    -- The three slices are adjacent, start after the version byte and reach the end.
    simp only [Octets.slice]
    rw [← hnonce, slice_append_slice, Nat.add_assoc, slice_append_slice]
    simp only [nonceOffset, versionOffset, versionLen, nonceLen, tagLen, List.drop_succ_cons,
      List.drop_zero, Nat.zero_add]
    apply List.take_of_length_le
    simp only [minFrameLen, headerLen, versionLen, nonceLen, tagLen, List.length_cons]
    omega

/-- The four answers, in the order in which the defects are looked for. -/
theorem decode_cases (input : Bytes) :
    (input.length < minFrameLen ∧
      decode input = .error (.tooShort minFrameLen input.length)) ∨
    (minFrameLen ≤ input.length ∧ ∃ version rest, input = version :: rest ∧
      version ≠ wireVersionV1 ∧ decode input = .error (.badVersion version)) ∨
    (maxFrameLen < input.length ∧ ∃ rest, input = wireVersionV1 :: rest ∧
      decode input = .error .badLength) ∨
    (minFrameLen ≤ input.length ∧ input.length ≤ maxFrameLen ∧
      ∃ frame, decode input = .ok frame ∧ frame.version = wireVersionV1 ∧
        frame.payload.length ≤ maxPayloadLen ∧
        input = frame.version :: (frame.nonce.val ++ frame.payload ++ frame.tag.val)) := by
  by_cases hshort : input.length < minFrameLen
  · exact .inl ⟨hshort, decode_of_short hshort⟩
  have hmin : minFrameLen ≤ input.length := Nat.le_of_not_lt hshort
  cases input with
  | nil => exact absurd hmin (by decide)
  | cons version rest =>
      by_cases hversion : version = wireVersionV1
      · subst hversion
        by_cases hlong : maxFrameLen < (wireVersionV1 :: rest).length
        · exact .inr (.inr (.inl ⟨hlong, rest, rfl, decode_of_long hlong⟩))
        · have hmax := Nat.le_of_not_lt hlong
          obtain ⟨frame, hdecode, hframe, hpayload, hrest⟩ := decode_of_accepted hmin hmax
          refine .inr (.inr (.inr ⟨hmin, hmax, frame, hdecode, hframe, hpayload, ?_⟩))
          rw [hframe, hrest]
      · exact .inr (.inl ⟨hmin, version, rest, rfl, hversion, decode_of_badVersion hmin hversion⟩)

theorem decode_eq_ok {input : Bytes} {frame : Frame} (hdecode : decode input = .ok frame) :
    minFrameLen ≤ input.length ∧ input.length ≤ maxFrameLen ∧ frame.version = wireVersionV1 ∧
      frame.payload.length ≤ maxPayloadLen ∧
      input = frame.version :: (frame.nonce.val ++ frame.payload ++ frame.tag.val) := by
  rcases decode_cases input with ⟨_, herr⟩ | ⟨_, _, _, _, _, herr⟩ | ⟨_, _, _, herr⟩ |
    ⟨hmin, hmax, decoded, hok, hversion, hpayload, hinput⟩
  · rw [herr] at hdecode
    cases hdecode
  · rw [herr] at hdecode
    cases hdecode
  · rw [herr] at hdecode
    cases hdecode
  · rw [hok] at hdecode
    cases hdecode
    exact ⟨hmin, hmax, hversion, hpayload, hinput⟩

theorem isOk_decode_iff (input : Bytes) :
    (∃ frame, decode input = .ok frame) ↔
      minFrameLen ≤ input.length ∧ input.length ≤ maxFrameLen ∧
        input.head? = some wireVersionV1 := by
  constructor
  · rintro ⟨frame, hdecode⟩
    obtain ⟨hmin, hmax, hversion, _, hinput⟩ := decode_eq_ok hdecode
    refine ⟨hmin, hmax, ?_⟩
    rw [hinput, hversion]
    rfl
  · rintro ⟨hmin, hmax, hhead⟩
    obtain ⟨rest, rfl⟩ := List.head?_eq_some_iff.mp hhead
    obtain ⟨frame, hdecode, _⟩ := decode_of_accepted hmin hmax
    exact ⟨frame, hdecode⟩

/-! ## Round trips -/

theorem encode_of_fits {frame : Frame} (hfits : frame.payload.length ≤ maxPayloadLen)
    (buf : Bytes) :
    encode frame buf =
      .ok (buf ++ frame.version :: (frame.nonce.val ++ frame.payload ++ frame.tag.val)) := by
  unfold encode
  rw [if_neg (Nat.not_lt.mpr hfits)]

theorem bodyBytes_of_fits {frame : Frame} (hfits : frame.payload.length ≤ maxPayloadLen) :
    bodyBytes frame = .ok (frame.version :: (frame.nonce.val ++ frame.payload)) := by
  unfold bodyBytes
  rw [if_neg (Nat.not_lt.mpr hfits)]

/-- The fixed widths at both ends determine the split of the bytes. -/
theorem fields_injective {nonce nonce' : Octets nonceLen} {payload payload' : Bytes}
    {tag tag' : Octets tagLen}
    (heq : nonce.val ++ payload ++ tag.val = nonce'.val ++ payload' ++ tag'.val) :
    nonce = nonce' ∧ payload = payload' ∧ tag = tag' := by
  have htags : tag.val.length = tag'.val.length := tag.property.trans tag'.property.symm
  have hnonces : nonce.val.length = nonce'.val.length :=
    nonce.property.trans nonce'.property.symm
  obtain ⟨hbody, htag⟩ := List.append_inj' heq htags
  obtain ⟨hnonce, hpayload⟩ := List.append_inj hbody hnonces
  exact ⟨Subtype.ext hnonce, hpayload, Subtype.ext htag⟩

theorem length_fields (frame : Frame) :
    (frame.version :: (frame.nonce.val ++ frame.payload ++ frame.tag.val)).length =
      minFrameLen + frame.payload.length := by
  simp only [List.length_cons, List.length_append, frame.nonce.property, frame.tag.property,
    minFrameLen, headerLen, versionLen]
  omega

theorem decode_fields (frame : Frame) (hversion : frame.version = wireVersionV1)
    (hfits : frame.payload.length ≤ maxPayloadLen) :
    decode (frame.version :: (frame.nonce.val ++ frame.payload ++ frame.tag.val)) =
      .ok frame := by
  have hlength := length_fields frame
  rw [hversion] at hlength ⊢
  obtain ⟨decoded, hdecode, hversion', _, hfields⟩ := decode_of_accepted
    (by rw [hlength]; omega) (by rw [hlength]; unfold maxFrameLen; omega)
  obtain ⟨hnonce, hpayload, htag⟩ := fields_injective hfields
  have hsame : decoded = frame := by
    cases decoded
    cases frame
    simp only at hversion hversion' hnonce hpayload htag
    rw [hversion, hversion', hnonce, hpayload, htag]
  rw [hdecode, hsame]

theorem decode_encode {frame : Frame} (hversion : frame.version = wireVersionV1)
    (hfits : frame.payload.length ≤ maxPayloadLen) :
    ∃ bytes, encode frame [] = .ok bytes ∧ decode bytes = .ok frame :=
  ⟨_, encode_of_fits hfits [], decode_fields frame hversion hfits⟩

theorem encode_decode {input : Bytes} {frame : Frame} (hdecode : decode input = .ok frame) :
    encode frame [] = .ok input := by
  obtain ⟨_, _, _, hfits, hinput⟩ := decode_eq_ok hdecode
  rw [encode_of_fits hfits, List.nil_append, ← hinput]

/-- The body is the encoding without its tag; both fail on the same frames. -/
theorem bodyBytes_eq (frame : Frame) :
    bodyBytes frame = (encode frame []).map fun bytes => bytes.take (bytes.length - tagLen) := by
  by_cases hlong : frame.payload.length > maxPayloadLen
  · unfold bodyBytes encode
    rw [if_pos hlong, if_pos hlong]
    rfl
  · have hfits := Nat.le_of_not_lt hlong
    rw [bodyBytes_of_fits hfits, encode_of_fits hfits]
    have hbytes : [] ++ frame.version :: (frame.nonce.val ++ frame.payload ++ frame.tag.val) =
        (frame.version :: (frame.nonce.val ++ frame.payload)) ++ frame.tag.val := by
      simp
    simp only [hbytes, Except.map]
    rw [List.length_append, frame.tag.property, Nat.add_sub_cancel, List.take_left]

/-- The codec is exact: the accepted strings, the two round trips, the body, the order of
the errors and the buffer of a failing call. -/
theorem codec_exact (input : Bytes) (frame : Frame) (buf : Bytes) :
    ((∃ decoded, decode input = .ok decoded) ↔
      33 ≤ input.length ∧ input.length ≤ 4129 ∧ input.head? = some 1) ∧
    (frame.version = 1 → frame.payload.length ≤ 4096 →
      ∃ bytes, encode frame [] = .ok bytes ∧ decode bytes = .ok frame) ∧
    (∀ decoded, decode input = .ok decoded → encode decoded [] = .ok input) ∧
    bodyBytes frame = ((encode frame []).map fun bytes => bytes.take (bytes.length - 16)) ∧
    (input.length < 33 → decode input = .error (.tooShort 33 input.length)) ∧
    (∀ version, 33 ≤ input.length → input.head? = some version → version ≠ 1 →
      decode input = .error (.badVersion version)) ∧
    (input.head? = some 1 → 4129 < input.length → decode input = .error .badLength) ∧
    (runEncode frame buf).1 = (encode frame buf).map (fun _ => ()) ∧
    (∀ out, encode frame buf = .ok out → (runEncode frame buf).2 = out) ∧
    (∀ err, (runEncode frame buf).1 = .error err → (runEncode frame buf).2 = buf) := by
  refine ⟨isOk_decode_iff input, decode_encode, fun decoded => encode_decode, bodyBytes_eq frame,
    decode_of_short, ?_, ?_, ?_, ?_, ?_⟩
  · intro version hlen hhead hversion
    obtain ⟨rest, rfl⟩ := List.head?_eq_some_iff.mp hhead
    exact decode_of_badVersion hlen hversion
  · intro hhead hlong
    obtain ⟨rest, rfl⟩ := List.head?_eq_some_iff.mp hhead
    exact decode_of_long hlong
  · rw [runEncode_eq]
    cases encode frame buf <;> rfl
  · intro out hout
    rw [runEncode_eq, hout]
  · intro err herr
    rw [runEncode_eq] at herr ⊢
    cases hout : encode frame buf with
    | ok out =>
        rw [hout] at herr
        cases herr
    | error err' => rfl

/-- The frame of the first known-answer vector. -/
def knownAnswer : Frame where
  version := wireVersionV1
  nonce := KnownAnswer.nonce
  payload := []
  tag := computeTag KnownAnswer.primitives KnownAnswer.bondKey
    (wireVersionV1 :: KnownAnswer.nonce.val)

/-- The vector round-trips, and a buffer survives a frame that is one byte too long. -/
theorem codec_exact_knownAnswer :
    (∃ bytes, encode knownAnswer [] = .ok bytes ∧ decode bytes = .ok knownAnswer) ∧
    (runEncode { knownAnswer with payload := List.replicate 4097 0 } [7]).2 = [7] :=
  ⟨(codec_exact [] knownAnswer []).2.1 rfl (Nat.zero_le _),
    (codec_exact [] { knownAnswer with payload := List.replicate 4097 0 } [7]).2.2.2.2.2.2.2.2.2
      .badLength (congrArg Prod.fst (runEncode_of_long
        (by simp only [List.length_replicate]; decide) [7]))⟩

end Frame

end Syauth
