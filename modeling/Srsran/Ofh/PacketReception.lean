import Srsran.Ofh.UplaneReception

/-! A packet from its first byte to its samples. It is received safely, unless its eCPRI payload is too short
for the fields that are read from it or a section is compressed in a way that nothing can decompress. -/
namespace Srsran.Ofh
open Checked NetworkOrderDeserializer

namespace UplaneMessageDecoder
variable {dec : UplaneMessageDecoder} {d : NetworkOrderDeserializer} {bytes rest : List UInt8}
  {sections : List UplaneSectionParams}

/-- A section of the results with the bytes that it was decoded from. -/
structure SectionAt (dec : UplaneMessageDecoder) (header data : List UInt8) (results : UplaneSectionParams) :
    Prop where
  frame : Frame dec header data { results with iqSamples := [] }
  prbs : 1 ≤ results.nofPrbs
  length : data.length = results.nofPrbs * getCompressedPrbSize results.udCompHdr
  decoded : decompress results.udCompHdr (results.nofPrbs * nofSubcarriersPerRb) data = .ok results.iqSamples
  samples : results.iqSamples.length = results.nofPrbs * nofSubcarriersPerRb

inductive Sections (dec : UplaneMessageDecoder) : List UInt8 → List UplaneSectionParams → List UInt8 → Prop where
  | nil {rest : List UInt8} : Sections dec rest [] rest
  | cons {header data bytes rest : List UInt8} {results : UplaneSectionParams}
      {sections : List UplaneSectionParams} (h : SectionAt dec header data results)
      (hrest : Sections dec bytes sections rest) :
      Sections dec (header ++ data ++ bytes) (results :: sections) rest

/-- The bytes start with a complete section. -/
def Complete (dec : UplaneMessageDecoder) (bytes : List UInt8) : Prop :=
  ∃ header data left results, bytes = header ++ data ++ left ∧ Frame dec header data results

/-- One of the first sections is compressed in a way that nothing can decompress. -/
def Unsupported (dec : UplaneMessageDecoder) (room : Nat) (bytes : List UInt8) : Prop :=
  ∃ sections header data left results, Sections dec bytes sections (header ++ data ++ left) ∧
    sections.length < room ∧ Frame dec header data results ∧
    supportsDecompression results.udCompHdr.type = false

variable {header data : List UInt8} {results : UplaneSectionParams}

theorem Frame.complete {left : List UInt8} (h : Frame dec header data results) :
    Complete dec (header ++ data ++ left) :=
  ⟨header, data, left, results, rfl, h⟩

variable {room : Nat}

theorem Unsupported.complete (h : Unsupported dec room bytes) : Complete dec bytes := by
  obtain ⟨sections, header, data, left, results, hsections, -, hframe, -⟩ := h
  cases hsections with
  | nil => exact hframe.complete
  | cons hsection => exact hsection.frame.complete

theorem not_complete_nil : ¬Complete dec [] := by
  rintro ⟨header, data, left, results, hbytes, hframe⟩
  have hlength := congrArg List.length hbytes
  have hheader := hframe.length_header
  rw [List.length_append, List.length_append, List.length_nil] at hlength
  omega

theorem Frame.decodeSection_supported (hframe : Frame dec header data results)
    (h : d.At (header ++ data ++ rest))
    (htype : supportsDecompression results.udCompHdr.type = true) :
    ∃ section' d', dec.decodeSection d = .ok (.ok section' d') ∧ d'.At rest ∧ SectionAt dec header data section' := by
  obtain ⟨d', hdecode, hat⟩ := hframe.decodeSection h
  obtain ⟨hpos, hle⟩ : 0 < results.udCompHdr.dataWidth ∧ results.udCompHdr.dataWidth ≤ maxIqWidth := by
    cases hframe with
    | mk hcomp hlen hdata => exact hcomp.width
  obtain ⟨samples, hsamples, hlength⟩ := decompress_ok hpos hle htype hframe.length_data
  rw [hsamples, ok_bind] at hdecode
  refine ⟨_, d', hdecode, hat, ?_, hframe.nofPrbs.1, hframe.length_data, hsamples, hlength⟩
  cases hframe with
  | mk hcomp hlen hdata => exact .mk hcomp hlen hdata

theorem Frame.decodeSection_unsupported (hframe : Frame dec header data results)
    (h : d.At (header ++ data ++ rest))
    (htype : supportsDecompression results.udCompHdr.type = false) :
    dec.decodeSection d = .error .unsupportedDecompression := by
  obtain ⟨d', hdecode, -⟩ := hframe.decodeSection h
  rw [hdecode, decompress_unsupported htype]
  rfl

theorem SectionAt.supported (h : SectionAt dec header data results) :
    supportsDecompression results.udCompHdr.type = true := by
  cases htype : supportsDecompression results.udCompHdr.type with
  | true => rfl
  | false =>
    have hdecoded := h.decoded
    rw [decompress_unsupported htype] at hdecoded
    cases hdecoded

theorem Refused.not_complete (hrefused : Refused (dec.decodeSection d)) (h : d.At bytes) :
    ¬Complete dec bytes := by
  rintro ⟨header, data, left, results, rfl, hframe⟩
  cases htype : supportsDecompression results.udCompHdr.type with
  | true =>
    obtain ⟨section', d', hdecode, -⟩ := hframe.decodeSection_supported h htype
    rw [hdecode] at hrefused
    rcases hrefused with hrefused | hrefused <;> cases hrefused
  | false =>
    rw [hframe.decodeSection_unsupported h htype] at hrefused
    rcases hrefused with hrefused | hrefused <;> cases hrefused

/-- Where a section was decoded, the next one is looked for behind it. -/
theorem unsupported_after {d' : NetworkOrderDeserializer} (h : d.At bytes)
    (hdecode : dec.decodeSection d = .ok (.ok results d')) (hat : d'.At rest)
    (hunsupported : Unsupported dec (room + 1) bytes) : Unsupported dec room rest := by
  obtain ⟨sections, header, data, left, last, hsections, hroom, hframe, htype⟩ := hunsupported
  cases hsections with
  | nil =>
    rw [hframe.decodeSection_unsupported h htype] at hdecode
    cases hdecode
  | cons hsection hrest =>
    obtain ⟨section', d'', hdecode', hat', -⟩ := hsection.frame.decodeSection_supported h hsection.supported
    rw [hdecode] at hdecode'
    cases hdecode'
    rw [← hat'.left, hat.left] at hrest
    exact ⟨_, header, data, left, last, hrest, Nat.lt_of_succ_lt_succ hroom, hframe, htype⟩

theorem validSections_eq_some {all : List UplaneSectionParams} (h : validSections sections = some all) :
    all = sections ∧ all ≠ [] := by
  cases sections with
  | nil => cases h
  | cons results sections =>
    cases h
    exact ⟨rfl, nofun⟩

/-- The sections of a message: those that are complete, in order. -/
theorem decodeAllSections_cases (sections : List UplaneSectionParams) (h : d.At bytes)
    (hroom : 1 ≤ room) :
    Unsupported dec room bytes ∧ dec.decodeAllSections room sections d = .error .unsupportedDecompression ∨
    ¬Unsupported dec room bytes ∧ ∃ r, dec.decodeAllSections room sections d = .ok r ∧
      ∀ all, r = some all → all ≠ [] ∧ ∃ more rest, all = sections ++ more ∧ Sections dec bytes more rest ∧
        ¬Complete dec rest := by
  induction room generalizing bytes sections d with
  | zero => cases hroom
  | succ room ih =>
    -- nothing more is decoded: the sections so far are the results
    have hstop : ¬Complete dec bytes → ∀ all, validSections sections = some all →
        all ≠ [] ∧ ∃ more rest, all = sections ++ more ∧ Sections dec bytes more rest ∧ ¬Complete dec rest := by
      intro hcomplete all hall
      obtain ⟨rfl, hne⟩ := validSections_eq_some hall
      exact ⟨hne, [], bytes, (List.append_nil _).symm, .nil, hcomplete⟩
    have hremaining := h.remainingBytes_eq
    rw [decodeAllSections]
    by_cases hend : d.remainingBytes = 0
    · rw [if_pos hend]
      rw [hremaining, List.length_eq_zero_iff] at hend
      subst hend
      exact .inr ⟨fun hunsupported => not_complete_nil hunsupported.complete, _, rfl, hstop not_complete_nil⟩
    · rw [if_neg hend]
      rcases decodeSection_cases dec h with ⟨header, data, left, results, rfl, hframe⟩ | hrefused
      · cases htype : supportsDecompression results.udCompHdr.type with
        | false =>
          refine .inl ⟨⟨[], header, data, left, results, .nil, Nat.succ_pos _, hframe, htype⟩, ?_⟩
          rw [hframe.decodeSection_unsupported h htype]
          rfl
        | true =>
          obtain ⟨section', d', hdecode, hat, hsection⟩ := hframe.decodeSection_supported h htype
          rw [hdecode, ok_bind]
          simp only
          by_cases hlast : room = 0
          · subst hlast
            refine .inr ⟨fun hunsupported => ?_, none, if_pos rfl, nofun⟩
            obtain ⟨_, _, _, _, _, _, hlt, -⟩ := unsupported_after h hdecode hat hunsupported
            cases hlt
          · rw [if_neg hlast]
            have hnext : Unsupported dec room left ∧
                dec.decodeAllSections room (sections ++ [section']) d' = .error .unsupportedDecompression ∨
                _ := ih _ hat (Nat.one_le_iff_ne_zero.mpr hlast)
            rcases hnext with ⟨hunsupported, herror⟩ | ⟨hnone, r, hr, hall⟩
            · obtain ⟨more, header', data', left', last, hmore, hlt, hlast', htype'⟩ := hunsupported
              exact .inl ⟨⟨section' :: more, header', data', left', last, .cons hsection hmore,
                Nat.succ_lt_succ hlt, hlast', htype'⟩, herror⟩
            · refine .inr ⟨fun hunsupported => hnone (unsupported_after h hdecode hat hunsupported), r, hr, ?_⟩
              intro all hsome
              obtain ⟨hne, more, rest, hmore, hsections, hcomplete⟩ := hall all hsome
              refine ⟨hne, section' :: more, rest, ?_, .cons hsection hsections, hcomplete⟩
              rw [hmore, List.append_assoc, List.singleton_append]
      · have hcomplete := hrefused.not_complete h
        refine .inr ⟨fun hunsupported => hcomplete hunsupported.complete, ?_⟩
        rcases hrefused with hrefused | hrefused
        · rw [hrefused]
          exact ⟨_, rfl, hstop hcomplete⟩
        · rw [hrefused]
          exact ⟨_, rfl, nofun⟩

/-- A message with a valid header, which is of four bytes. -/
def HasHeader (dec : UplaneMessageDecoder) (message : List UInt8) (params : UplaneMessageParams)
    (bytes : List UInt8) : Prop :=
  ∃ b₀ b₁ b₂ b₃ d, message = b₀ :: b₁ :: b₂ :: b₃ :: bytes ∧
    dec.decodeHeader { buffer := message } = .ok (some (params, d))

variable {message : List UInt8}

theorem HasHeader.unique {bytes' : List UInt8} {params params' : UplaneMessageParams}
    (h : HasHeader dec message params bytes) (h' : HasHeader dec message params' bytes') :
    bytes = bytes' := by
  obtain ⟨_, _, _, _, _, hmessage, -⟩ := h
  obtain ⟨_, _, _, _, _, hmessage', -⟩ := h'
  rw [hmessage] at hmessage'
  cases hmessage'
  rfl

theorem exists_four {bytes : List UInt8} (h : 4 ≤ bytes.length) :
    ∃ b₀ b₁ b₂ b₃ rest, bytes = b₀ :: b₁ :: b₂ :: b₃ :: rest := by
  match bytes, h with
  | b₀ :: b₁ :: b₂ :: b₃ :: rest, _ => exact ⟨b₀, b₁, b₂, b₃, rest, rfl⟩

theorem accepted_or_dropped {c : Prop} [Decidable c] {params : UplaneMessageParams} (h : d.At bytes) :
    (if c then .ok (some (params, d)) else .ok none) = (.ok none : Except OfhFault _) ∨
      ∃ params' d', (if c then .ok (some (params, d)) else .ok none) =
        (.ok (some (params', d')) : Except OfhFault _) ∧ d'.At bytes := by
  by_cases hc : c
  · exact .inr ⟨params, d, if_pos hc, h⟩
  · exact .inl (if_neg hc)

theorem decodeHeader_cases (dec : UplaneMessageDecoder) (hsmall : message.length < uintMod) :
    (dec.decodeHeader { buffer := message } = .ok none) ∨
      ∃ params bytes d, HasHeader dec message params bytes ∧
        dec.decodeHeader { buffer := message } = .ok (some (params, d)) ∧ d.At bytes := by
  have hstart := at_start hsmall
  by_cases hshort : message.length < nofBytesUpHeader
  · exact .inl (if_pos (by rw [hstart.remainingBytes_eq]; exact hshort))
  · obtain ⟨b₀, b₁, b₂, b₃, bytes, rfl⟩ := exists_four (Nat.le_of_not_lt hshort)
    obtain ⟨h₀, hat₀⟩ := hstart.readOneByte
    obtain ⟨h₁, hat₁⟩ := hat₀.readOneByte
    obtain ⟨h₂, hat₂⟩ := hat₁.readOneByte
    obtain ⟨h₃, hat₃⟩ := hat₂.readOneByte
    have hdecode : dec.decodeHeader { buffer := b₀ :: b₁ :: b₂ :: b₃ :: bytes } = .ok none ∨
        ∃ params d, dec.decodeHeader { buffer := b₀ :: b₁ :: b₂ :: b₃ :: bytes } = .ok (some (params, d)) ∧
          d.At bytes := by
      rw [decodeHeader, if_neg (by rw [hstart.remainingBytes_eq]; exact hshort), h₀, ok_bind]
      simp only
      rw [h₁, ok_bind]
      simp only
      rw [h₂, ok_bind]
      simp only
      rw [h₃, ok_bind]
      simp only
      split
      · exact .inl rfl
      · split
        · exact .inl rfl
        · exact accepted_or_dropped hat₃
    rcases hdecode with hnone | ⟨params, d, hsome, hat⟩
    · exact .inl hnone
    · exact .inr ⟨params, bytes, d, ⟨b₀, b₁, b₂, b₃, d, rfl, hsome⟩, hsome, hat⟩

/-- A message: its header and its sections, or a section that nothing can decompress. -/
theorem decode_cases (dec : UplaneMessageDecoder) (hsmall : message.length < uintMod) :
    (∃ params bytes, HasHeader dec message params bytes ∧
      Unsupported dec resultsMaxNofSupportedSections bytes) ∧
        dec.decode message = .error .unsupportedDecompression ∨
    (¬∃ params bytes, HasHeader dec message params bytes ∧
      Unsupported dec resultsMaxNofSupportedSections bytes) ∧ ∃ r, dec.decode message = .ok r ∧
        ∀ results, r = some results → ∃ bytes rest, HasHeader dec message results.params bytes ∧
          results.sections ≠ [] ∧ Sections dec bytes results.sections rest ∧ ¬Complete dec rest := by
  rcases decodeHeader_cases dec hsmall with hnone | ⟨params, bytes, d, hheader, hsome, hat⟩
  · refine .inr ⟨?_, none, by rw [decode, hnone, ok_bind], nofun⟩
    rintro ⟨params, bytes, ⟨_, _, _, _, d, -, hsome⟩, -⟩
    rw [hnone] at hsome
    cases hsome
  · have hdecode : dec.decode message = (do
        let sections ← dec.decodeAllSections resultsMaxNofSupportedSections [] d
        .ok (sections.map fun sections => ⟨params, sections⟩)) := by
      rw [decode, hsome, ok_bind]
    have hroom : 1 ≤ resultsMaxNofSupportedSections := by decide
    rw [hdecode]
    rcases decodeAllSections_cases [] hat hroom with ⟨hunsupported, herror⟩ | ⟨hnone, r, hr, hall⟩
    · exact .inl ⟨⟨params, bytes, hheader, hunsupported⟩, by rw [herror, error_bind]⟩
    · refine .inr ⟨?_, r.map fun sections => ⟨params, sections⟩, by rw [hr, ok_bind], ?_⟩
      · rintro ⟨params', bytes', hheader', hunsupported⟩
        rw [hheader'.unique hheader] at hunsupported
        exact hnone hunsupported
      · intro results hresults
        obtain ⟨all, hall', rfl⟩ := Option.map_eq_some_iff.mp hresults
        obtain ⟨hne, more, rest, rfl, hsections, hcomplete⟩ := hall all hall'
        exact ⟨bytes, rest, hheader, hne, hsections, hcomplete⟩

end UplaneMessageDecoder

def commonHeaderOf (b₀ b₁ b₂ b₃ : UInt8) : CommonHeader where
  revision := b₀.toNat >>> 4
  isLastPacket := b₀.toNat &&& 1 == 0
  msgType := b₁.toNat
  payloadSize := b₂.toNat <<< 8 ||| b₃.toNat

/-- What is to be made of a packet: it is dropped, its payload is too short for the identifiers in front of
the message, or it has a message. -/
inductive PacketView where
  | dropped
  | short
  | message (bytes : List UInt8)
  deriving DecidableEq, Repr

def isSupportedType (msgType : Nat) : Bool := msgType == iqData || msgType == rtControlData

def viewPayload (policy : PayloadSizePolicy) (header : CommonHeader) (payload : List UInt8) : PacketView :=
  if isSupportedType header.msgType then
    match policy with
    | .useHeaderPayloadSize =>
      if payload.length < header.payloadSize then .dropped
      else if header.payloadSize < 4 then .short
      else .message ((payload.drop 4).take (header.payloadSize - 4))
    | .ignoreHeaderPayloadSize => if payload.length < 4 then .short else .message (payload.drop 4)
  else .dropped

/-- The bytes behind the header, as many as an unsigned length counts. -/
def payloadOf (rest : List UInt8) : List UInt8 := rest.take ((rest.length + 4) % uintMod - 4)

def viewPacket (policy : PayloadSizePolicy) : List UInt8 → PacketView
  | b₀ :: b₁ :: b₂ :: b₃ :: rest =>
    if (payloadOf rest).isEmpty || !isCommonHeaderValid (commonHeaderOf b₀ b₁ b₂ b₃) then .dropped
    else viewPayload policy (commonHeaderOf b₀ b₁ b₂ b₃) (payloadOf rest)
  | _ => .dropped

/-- A decoder makes of a packet what the view says. -/
def Decodes (view : PacketView) (r : Except OfhFault (Option (PacketParameters × List UInt8))) : Prop :=
  match view with
  | .dropped => r = .ok none
  | .short => ∃ fault, r = .error fault
  | .message bytes => ∃ params, r = .ok (some (params, bytes))

theorem length_payloadOf_lt (rest : List UInt8) : (payloadOf rest).length < uintMod := by
  have hmod := Nat.mod_lt (rest.length + 4) (by decide : 0 < uintMod)
  rw [payloadOf, List.length_take]
  omega

variable (params : Nat → Nat → TypeParams)

theorem deserializeTypeParams_ok (b₀ b₁ b₂ b₃ : UInt8) (rest : List UInt8) :
    ∃ typeParams, deserializeTypeParams params { buffer := b₀ :: b₁ :: b₂ :: b₃ :: rest } =
      .ok (typeParams, { buffer := b₀ :: b₁ :: b₂ :: b₃ :: rest, offset := 4 }) :=
  ⟨_, rfl⟩

variable {payload : List UInt8}

theorem deserializeTypeParams_short (h : payload.length < 4) :
    deserializeTypeParams params { buffer := payload } = .error .outOfBuffer := by
  match payload, h with
  | [], _ => rfl
  | [_], _ => rfl
  | [_, _], _ => rfl
  | [_, _, _], _ => rfl

theorem subspan_ok {bytes : List UInt8} {offset count : Nat} (h : offset + count ≤ bytes.length) :
    subspan bytes offset count = .ok ((bytes.drop offset).take count) :=
  if_pos ⟨by omega, by omega⟩

/-- The size of the message without the identifiers, with the wrap-around of a smaller one. -/
theorem uintSub_four {n : Nat} (h : n < uintMod) :
    uintSub n 4 = if n < 4 then n + uintMod - 4 else n - 4 := by
  rw [uintSub]
  split
  · exact Nat.mod_eq_of_lt (by omega)
  · rw [show n + uintMod - 4 = n - 4 + uintMod by omega, Nat.add_mod_right]
    exact Nat.mod_eq_of_lt (by omega)

variable {header : CommonHeader}

theorem decodesUseHeader (hsmall : payload.length < uintMod)
    (hsize : header.payloadSize ≤ payload.length) :
    Decodes (if header.payloadSize < 4 then .short else .message ((payload.drop 4).take (header.payloadSize - 4)))
      (do
        let (params, d) ← deserializeTypeParams params { buffer := payload }
        let bytes ← subspan payload d.offset (uintSub header.payloadSize 4)
        .ok (some (⟨header, params⟩, bytes))) := by
  by_cases hshort : payload.length < 4
  · rw [if_pos (by omega), deserializeTypeParams_short params hshort]
    exact ⟨_, rfl⟩
  · obtain ⟨b₀, b₁, b₂, b₃, rest, rfl⟩ := UplaneMessageDecoder.exists_four (Nat.le_of_not_lt hshort)
    obtain ⟨typeParams, htype⟩ := deserializeTypeParams_ok params b₀ b₁ b₂ b₃ rest
    rw [htype, ok_bind, uintSub_four (by omega)]
    simp only
    split
    · rename_i hwrapped
      rw [subspan, if_neg (by omega)]
      exact ⟨_, rfl⟩
    · rw [subspan_ok (by omega), ok_bind]
      exact ⟨_, rfl⟩

theorem decodesIgnoreHeader (hsmall : payload.length < uintMod) :
    Decodes (if payload.length < 4 then .short else .message (payload.drop 4))
      (do
        let (params, d) ← deserializeTypeParams params { buffer := payload }
        let bytes ← subspan payload d.offset d.remainingBytes
        .ok (some (⟨header, params⟩, bytes))) := by
  by_cases hshort : payload.length < 4
  · rw [if_pos hshort, deserializeTypeParams_short params hshort]
    exact ⟨_, rfl⟩
  · obtain ⟨b₀, b₁, b₂, b₃, rest, rfl⟩ := UplaneMessageDecoder.exists_four (Nat.le_of_not_lt hshort)
    obtain ⟨typeParams, htype⟩ := deserializeTypeParams_ok params b₀ b₁ b₂ b₃ rest
    rw [htype, ok_bind, if_neg hshort]
    simp only [NetworkOrderDeserializer.remainingBytes, size]
    rw [Nat.mod_eq_of_lt hsmall, uintSub_four hsmall, if_neg hshort, subspan_ok (by omega), ok_bind]
    refine ⟨⟨header, typeParams⟩, ?_⟩
    rw [List.take_of_length_le (by rw [List.length_drop])]

theorem decodePayload_decodes (policy : PayloadSizePolicy) (hsmall : payload.length < uintMod) :
    Decodes (viewPayload policy header payload) (decodePayload policy header payload) := by
  have htypes : isSupportedType header.msgType = true ↔
      header.msgType = iqData ∨ header.msgType = rtControlData := by
    rw [isSupportedType, Bool.or_eq_true, beq_iff_eq, beq_iff_eq]
  cases policy with
  | useHeaderPayloadSize =>
    rw [viewPayload, decodePayload, decodePayloadUseHeader, Nat.mod_eq_of_lt hsmall]
    by_cases hsize : payload.length < header.payloadSize
    · rw [if_pos hsize]
      simp only [if_pos hsize]
      split <;> rfl
    · simp only [if_neg hsize]
      have hle := Nat.le_of_not_lt hsize
      by_cases hiq : header.msgType = iqData
      · rw [if_pos (htypes.mpr (.inl hiq)), if_pos hiq]
        exact decodesUseHeader .iqData hsmall hle
      · rw [if_neg hiq]
        by_cases hrt : header.msgType = rtControlData
        · rw [if_pos (htypes.mpr (.inr hrt)), if_pos hrt]
          exact decodesUseHeader .realtimeControl hsmall hle
        · rw [if_neg (fun htype => (htypes.mp htype).elim hiq hrt), if_neg hrt]
          rfl
  | ignoreHeaderPayloadSize =>
    rw [viewPayload, decodePayload, decodePayloadIgnoreHeader]
    by_cases hiq : header.msgType = iqData
    · rw [if_pos (htypes.mpr (.inl hiq)), if_pos hiq]
      exact decodesIgnoreHeader .iqData hsmall
    · rw [if_neg hiq]
      by_cases hrt : header.msgType = rtControlData
      · rw [if_pos (htypes.mpr (.inr hrt)), if_pos hrt]
        exact decodesIgnoreHeader .realtimeControl hsmall
      · rw [if_neg (fun htype => (htypes.mp htype).elim hiq hrt), if_neg hrt]
        rfl

theorem decodeHeader_short {packet : List UInt8} (h : packet.length % uintMod < 4) :
    decodeHeader packet = .ok none := if_pos h

theorem decodeHeader_eq {b₀ b₁ b₂ b₃ : UInt8} {rest : List UInt8} (h : 4 ≤ (rest.length + 4) % uintMod) :
    decodeHeader (b₀ :: b₁ :: b₂ :: b₃ :: rest) =
      if isCommonHeaderValid (commonHeaderOf b₀ b₁ b₂ b₃) then
        .ok (some (commonHeaderOf b₀ b₁ b₂ b₃, payloadOf rest))
      else .ok none := by
  have hread : deserializeHeader { buffer := b₀ :: b₁ :: b₂ :: b₃ :: rest } =
      .ok (commonHeaderOf b₀ b₁ b₂ b₃, { buffer := b₀ :: b₁ :: b₂ :: b₃ :: rest, offset := 4 }) := rfl
  have hlength : (b₀ :: b₁ :: b₂ :: b₃ :: rest).length = rest.length + 4 := rfl
  have hlt := Nat.mod_lt (rest.length + 4) (by decide : 0 < uintMod)
  have hle := Nat.mod_le (rest.length + 4) uintMod
  rw [decodeHeader, hlength, ecpriCommonHeaderSize, if_neg (Nat.not_lt.mpr h), hread, ok_bind]
  simp only [NetworkOrderDeserializer.remainingBytes, size, hlength]
  rw [uintSub_four hlt, if_neg (Nat.not_lt.mpr h), subspan_ok (by rw [hlength]; omega), ok_bind]
  rfl

theorem decodePacket_decodes (policy : PayloadSizePolicy) (packet : List UInt8) :
    Decodes (viewPacket policy packet) (decodePacket policy packet) := by
  rw [decodePacket]
  by_cases hshort : packet.length % uintMod < 4
  · rw [decodeHeader_short hshort, ok_bind]
    match packet, hshort with
    | [], _ => rfl
    | [_], _ => rfl
    | [_, _], _ => rfl
    | [_, _, _], _ => rfl
    | b₀ :: b₁ :: b₂ :: b₃ :: rest, hshort =>
      have hempty : payloadOf rest = [] := by
        rw [payloadOf, show (rest.length + 4) % uintMod - 4 = 0 from Nat.sub_eq_zero_of_le (Nat.le_of_lt hshort)]
        rfl
      rw [viewPacket, hempty]
      rfl
  · have hle := Nat.mod_le packet.length uintMod
    obtain ⟨b₀, b₁, b₂, b₃, rest, rfl⟩ := UplaneMessageDecoder.exists_four (by omega : 4 ≤ packet.length)
    rw [decodeHeader_eq (Nat.le_of_not_lt hshort), viewPacket]
    cases hvalid : isCommonHeaderValid (commonHeaderOf b₀ b₁ b₂ b₃) with
    | false =>
      rw [if_neg Bool.false_ne_true, ok_bind, Bool.not_false, Bool.or_true]
      rfl
    | true =>
      rw [if_pos rfl, ok_bind, Bool.not_true, Bool.or_false]
      simp only
      cases hempty : (payloadOf rest).isEmpty with
      | true => rfl
      | false => exact decodePayload_decodes policy (length_payloadOf_lt rest)

theorem viewPayload_message {policy : PayloadSizePolicy} {message : List UInt8}
    (h : viewPayload policy header payload = .message message) :
    4 ≤ payload.length ∧ ∃ n, message = (payload.drop 4).take n := by
  cases policy with
  | useHeaderPayloadSize =>
    rw [viewPayload] at h
    split at h
    · split at h
      · cases h
      · split at h
        · cases h
        · cases h
          exact ⟨by omega, _, rfl⟩
    · cases h
  | ignoreHeaderPayloadSize =>
    rw [viewPayload] at h
    split at h
    · split at h
      · cases h
      · cases h
        exact ⟨by omega, (payload.drop 4).length, (List.take_length).symm⟩
    · cases h

/-- Where a message is in its packet: behind the common header and the identifiers. -/
theorem viewPacket_layout {policy : PayloadSizePolicy} {packet message : List UInt8}
    (h : viewPacket policy packet = .message message) :
    ∃ front after, packet = front ++ message ++ after ∧ front.length = 8 ∧ message.length < uintMod := by
  match packet, h with
  | b₀ :: b₁ :: b₂ :: b₃ :: rest, h =>
    have hsmall := length_payloadOf_lt rest
    have hrest : rest = payloadOf rest ++ rest.drop ((rest.length + 4) % uintMod - 4) :=
      (List.take_append_drop _ _).symm
    rw [viewPacket] at h
    split at h
    · cases h
    · obtain ⟨hfour, n, rfl⟩ := viewPayload_message h
      refine ⟨b₀ :: b₁ :: b₂ :: b₃ :: (payloadOf rest).take 4,
        ((payloadOf rest).drop 4).drop n ++ rest.drop ((rest.length + 4) % uintMod - 4), ?_, ?_, ?_⟩
      · simp only [List.cons_append, List.append_assoc]
        rw [← List.append_assoc (((payloadOf rest).drop 4).take n), List.take_append_drop, ← List.append_assoc,
          List.take_append_drop, ← hrest]
      · simp only [List.length_cons, List.length_take]
        omega
      · rw [List.length_take, List.length_drop]
        omega

namespace UplaneMessageDecoder
variable {dec : UplaneMessageDecoder} {policy : PayloadSizePolicy} {packet : List UInt8}

/-- Results that say what the packet holds: in a valid message, sections one after the other, each with the
samples of its own PRBs, up to where no complete section follows. -/
structure Received (dec : UplaneMessageDecoder) (policy : PayloadSizePolicy) (packet : List UInt8)
    (results : UplaneMessageDecoderResults) : Prop where
  nonempty : results.sections ≠ []
  layout : ∃ front message after bytes rest, packet = front ++ message ++ after ∧ front.length = 8 ∧
    viewPacket policy packet = .message message ∧ HasHeader dec message results.params bytes ∧
    Sections dec bytes results.sections rest ∧ ¬Complete dec rest

/-- The packet is received without a fault, and its results are those of the packet. -/
def ReceivedSafely (dec : UplaneMessageDecoder) (policy : PayloadSizePolicy) (packet : List UInt8) : Prop :=
  ∃ r, dec.receivePacket policy packet = .ok r ∧ ∀ results, r = some results → Received dec policy packet results

/-- A packet is received safely if and only if its payload is not too short for the identifiers and none of its
first two sections is compressed in a way that is not supported. -/
theorem ofhReception_safe_iff (dec : UplaneMessageDecoder) (policy : PayloadSizePolicy) (packet : List UInt8) :
    ReceivedSafely dec policy packet ↔ viewPacket policy packet ≠ .short ∧
      ¬∃ message params bytes, viewPacket policy packet = .message message ∧
        HasHeader dec message params bytes ∧ Unsupported dec resultsMaxNofSupportedSections bytes := by
  have hdecodes := decodePacket_decodes policy packet
  rw [ReceivedSafely, receivePacket]
  cases hview : viewPacket policy packet with
  | dropped =>
    rw [hview] at hdecodes
    have hdropped : decodePacket policy packet = .ok none := hdecodes
    rw [hdropped, ok_bind]
    exact ⟨fun _ => ⟨nofun, nofun⟩, fun _ => ⟨none, rfl, nofun⟩⟩
  | short =>
    rw [hview] at hdecodes
    obtain ⟨fault, hfault⟩ := hdecodes
    rw [hfault, error_bind]
    exact ⟨fun ⟨_, hr, _⟩ => (by cases hr), fun ⟨hshort, _⟩ => absurd rfl hshort⟩
  | message message =>
    rw [hview] at hdecodes
    obtain ⟨params, hparams⟩ := hdecodes
    obtain ⟨front, after, hpacket, hfront, hsmall⟩ := viewPacket_layout hview
    rw [hparams, ok_bind]
    simp only
    cases hempty : message.isEmpty with
    | true =>
      rw [List.isEmpty_iff] at hempty
      subst hempty
      refine ⟨fun _ => ⟨nofun, ?_⟩, fun _ => ⟨none, if_pos rfl, nofun⟩⟩
      rintro ⟨message, params, bytes, hmessage, ⟨_, _, _, _, _, hbytes, -⟩, -⟩
      cases hmessage
      cases hbytes
    | false =>
      rw [if_neg Bool.false_ne_true]
      rcases decode_cases dec hsmall with ⟨⟨params, bytes, hbad⟩, herror⟩ | ⟨hnone, r, hr, hall⟩
      · rw [herror]
        refine ⟨fun ⟨_, hr, _⟩ => (by cases hr), fun ⟨_, hnone⟩ => ?_⟩
        exact absurd ⟨message, params, bytes, rfl, hbad⟩ hnone
      · rw [hr]
        refine ⟨fun _ => ⟨nofun, ?_⟩, fun _ => ⟨r, rfl, fun results hresults => ?_⟩⟩
        · rintro ⟨message', params, bytes, hmessage, hbad⟩
          cases hmessage
          exact hnone ⟨params, bytes, hbad⟩
        · obtain ⟨bytes, rest, hheader, hne, hsections, hcomplete⟩ := hall results hresults
          exact ⟨hne, front, message, after, bytes, rest, hpacket, hfront, hview, hheader, hsections, hcomplete⟩

/-- A carrier of 51 PRBs with static block floating point compression of 9 bits. -/
def sampleDecoder : UplaneMessageDecoder where
  numerology := 1
  nofSymbols := 14
  ruNofPrbs := 51
  compressionParams := some ⟨.bfp, 9⟩
  ruNofPrbs_pos := by decide
  ruNofPrbs_le := by decide
  type_known := by simp
  width_pos := by simp
  width_le := by simp [maxIqWidth]

/-- A padded frame whose payload size field is zero. -/
theorem ofhReception_zeroPayloadSize :
    ¬ReceivedSafely sampleDecoder .useHeaderPayloadSize [0x10, 0, 0, 0, 1, 2, 3, 4] := by
  rintro ⟨r, hr, -⟩
  have hfault : sampleDecoder.receivePacket .useHeaderPayloadSize [0x10, 0, 0, 0, 1, 2, 3, 4] =
      .error .outOfSpan := rfl
  rw [hfault] at hr
  cases hr

end UplaneMessageDecoder

end Srsran.Ofh
