import Srsran.Mac.DlSchAssembly

/-! Whole transport blocks: the entries of the scheduler one after the other, then padding. What a
receiver decodes is what was put in, up to the TAG ids of the timing advance commands. -/
namespace Srsran.Mac
open Srsran.Support Checked LcidDlSch

def Schedulable (entry : DlMsgLcInfo) : Prop :=
  entry.lcid.isSdu = true ∧ entry.schedBytes < 2 ^ 16 ∨ entry.lcid = ueConResId ∨
    entry.lcid = LcidDlSch.taCmd ∧ entry.cePayload.isSome = true

def requiredBytes (entry : DlMsgLcInfo) : Nat :=
  if entry.lcid.isSdu then getMacSduRequiredBytes entry.schedBytes else 1 + sizeofCe entry.lcid

/-- The subPDUs that stand for an entry. -/
def Contributes (conRes : Vector UInt8 6) (entry : DlMsgLcInfo) (group : List DlSubpdu) : Prop :=
  if entry.lcid.isSdu then ∀ subpdu ∈ group, IsSduOf entry.lcid subpdu
  else if entry.lcid = ueConResId then group = [.conRes conRes.toList]
  else ∃ cePayload, entry.cePayload = some cePayload ∧
    group = [.taCmd cePayload.tagId.toNat cePayload.taCmd]

/-- The subPDUs that stand for a list of entries. -/
inductive Packed (conRes : Vector UInt8 6) : List DlMsgLcInfo → List DlSubpdu → Prop
  | nil : Packed conRes [] []
  | cons {entry : DlMsgLcInfo} {entries : List DlMsgLcInfo} {group log : List DlSubpdu}
      (first : Contributes conRes entry group) (others : Packed conRes entries log) :
      Packed conRes (entry :: entries) (group ++ log)

section
variable {S : Type} {bearer : MacSduTxBuilder S} {conRes : Vector UInt8 6} {a : Assembly S}
  {done rest : List UInt8}

theorem getMacSduRequiredBytes_lt {n : Nat} (h : n < 2 ^ 16) : getMacSduRequiredBytes n ≤ 65538 := by
  unfold getMacSduRequiredBytes getMacSduSubheaderSize macSduSubheaderLengthThres
    minMacSduSubheaderSize maxMacSduSubheaderSize
  split
  · omega
  · split <;> omega

variable {entry : DlMsgLcInfo}

theorem assembleSdus_spec (hpdu : a.pdu = layout done rest) (hbytes : entry.schedBytes < 2 ^ 16) :
    ∃ a' group, a.assembleSdus bearer entry = .ok a' ∧
      Added bearer a a' group (getMacSduRequiredBytes entry.schedBytes) ∧
      ∀ subpdu ∈ group, IsSduOf entry.lcid subpdu := by
  have hspace : a.pdu.nofEmptyBytes = rest.length := by rw [hpdu, nofEmptyBytes_layout]
  have hlimit := getMacSduRequiredBytes_lt hbytes
  rw [Assembly.assembleSdus, hspace]
  obtain ⟨a', group, hloop, hadded, hall⟩ := @assembleSdusLoop_spec done rest S bearer a
    entry.lcid _ _ hpdu (Nat.min_le_right (getMacSduRequiredBytes entry.schedBytes) rest.length)
    (Nat.le_refl _) (by omega)
  exact ⟨a', group, hloop, hadded.mono (Nat.min_le_left _ _), hall⟩

theorem length_conRes (conRes : Vector UInt8 6) : conRes.toList.length = 6 := by simp

/-- The bits of the timing advance command come to stand where `sent` says. -/
theorem taByte_eq (tagId : UInt8) (ta : Nat) :
    UInt8.ofNat ((tagId.toNat &&& 0xc0) ||| (ta &&& 0x3f)) =
      UInt8.ofNat ((tagId.toNat >>> 6) <<< 6 ||| (ta &&& 0x3f &&& 0x3f)) := by
  have htag : ∀ tagId : UInt8, tagId.toNat &&& 0xc0 = (tagId.toNat >>> 6) <<< 6 := by
    intro tagId
    have hall : ∀ n : Fin 256, n.val &&& 0xc0 = (n.val >>> 6) <<< 6 := by decide +kernel
    exact hall ⟨tagId.toNat, tagId.toNat_lt⟩
  rw [htag, Nat.and_assoc, Nat.and_self]

theorem sentBytes_taCmd (tagId : UInt8) (ta : Nat) :
    sentBytes [.taCmd tagId.toNat ta] =
      [subheaderByte false LcidDlSch.taCmd,
        UInt8.ofNat ((tagId.toNat &&& 0xc0) ||| (ta &&& 0x3f))] := by
  rw [taByte_eq]
  rfl

theorem sentBytes_conRes (id : List UInt8) :
    sentBytes [.conRes id] = subheaderByte false ueConResId :: id := by
  simp [sentBytes, sent, encodeSubpdu]

/-- A control element: its subheader of one byte, then its payload. -/
theorem push_ce {lcid : LcidDlSch} {payload : List UInt8} (length : Nat)
    (hfits : 1 + payload.length ≤ rest.length) :
    ((layout done rest).encodeSubheader false lcid 1 length >>= fun p => p.push payload) =
      .ok (layout (done ++ subheaderByte false lcid :: payload) (rest.drop (1 + payload.length))) := by
  have hheader : (layout done rest).encodeSubheader false lcid 1 length =
      .ok (layout (done ++ [subheaderByte false lcid]) (rest.drop 1)) := by
    show (layout done rest).push [subheaderByte false lcid] = _
    exact push_layout (by simpa using Nat.le_trans (Nat.le_add_right 1 _) hfits)
  rw [hheader, ok_bind, push_layout (by rw [List.length_drop]; omega), List.append_assoc, List.drop_drop]
  rfl

theorem assembleCe_conRes (hpdu : a.pdu = layout done rest)
    (hlcid : entry.lcid = ueConResId) (hfits : 7 ≤ rest.length) :
    ∃ a', Assembly.assembleCe conRes a entry = .ok a' ∧
      Added bearer a a' [.conRes conRes.toList] 7 := by
  have hlength : (sentBytes [.conRes conRes.toList]).length = 7 := by
    rw [sentBytes_conRes, List.length_cons, length_conRes]
  have hpush := @push_ce done rest ueConResId conRes.toList (sizeofCe ueConResId)
    (by rw [length_conRes]; omega)
  rw [← sentBytes_conRes, length_conRes] at hpush
  rw [Assembly.assembleCe, if_pos hlcid, hpdu, DlSchPdu.addUeConResId, hpush, ok_bind]
  refine ⟨_, rfl, ?_⟩
  rw [← hlength]
  exact .appended hpdu (by rw [hlength, List.length_drop]; omega) (.refl _)

theorem assembleCe_taCmd {cePayload : DlSchPdu.TaCmdCePayload}
    (hpdu : a.pdu = layout done rest) (hlcid : entry.lcid = LcidDlSch.taCmd)
    (hpayload : entry.cePayload = some cePayload) (hfits : 2 ≤ rest.length) :
    ∃ a', Assembly.assembleCe conRes a entry = .ok a' ∧
      Added bearer a a' [.taCmd cePayload.tagId.toNat cePayload.taCmd] 2 := by
  have hlength : (sentBytes [.taCmd cePayload.tagId.toNat cePayload.taCmd]).length = 2 := by
    rw [sentBytes_taCmd]
    rfl
  have hpush := @push_ce done rest LcidDlSch.taCmd
    [UInt8.ofNat ((cePayload.tagId.toNat &&& 0xc0) ||| (cePayload.taCmd &&& 0x3f))]
    (sizeofCe LcidDlSch.taCmd) hfits
  rw [← sentBytes_taCmd] at hpush
  have hne : ¬ entry.lcid = ueConResId := by
    rw [hlcid]
    decide
  rw [Assembly.assembleCe, if_neg hne, hpayload]
  dsimp only
  rw [if_pos hlcid, hpdu, DlSchPdu.addTagCmd, hpush, ok_bind]
  refine ⟨_, rfl, ?_⟩
  rw [← hlength]
  refine .appended hpdu ?_ (.refl _)
  rw [hlength, List.length_drop, List.length_singleton]
  omega

theorem assembleSubpdu_spec (hpdu : a.pdu = layout done rest)
    (hentry : Schedulable entry) (hfits : requiredBytes entry ≤ rest.length) :
    ∃ a' group, a.assembleSubpdu bearer conRes entry = .ok a' ∧
      Added bearer a a' group (requiredBytes entry) ∧ Contributes conRes entry group := by
  rw [requiredBytes] at hfits ⊢
  rw [Assembly.assembleSubpdu]
  rcases hentry with ⟨hsdu, hbytes⟩ | hlcid | ⟨hlcid, hpayload⟩
  · rw [if_pos hsdu, if_pos hsdu]
    obtain ⟨a', group, hsdus, hadded, hall⟩ := @assembleSdus_spec S bearer a done rest entry hpdu hbytes
    exact ⟨a', group, hsdus, hadded, by rwa [Contributes, if_pos hsdu]⟩
  · have hce : ¬ entry.lcid.isSdu = true := by
      rw [hlcid]
      decide
    rw [if_neg hce, hlcid] at hfits
    rw [if_neg hce, if_neg hce]
    obtain ⟨a', hassemble, hadded⟩ := @assembleCe_conRes S bearer conRes a done rest entry hpdu hlcid hfits
    refine ⟨a', _, hassemble, ?_, by rw [Contributes, if_neg hce, if_pos hlcid]⟩
    rwa [hlcid]
  · have hce : ¬ entry.lcid.isSdu = true := by
      rw [hlcid]
      decide
    have hne : ¬ entry.lcid = ueConResId := by
      rw [hlcid]
      decide
    obtain ⟨cePayload, hpayload⟩ := Option.isSome_iff_exists.mp hpayload
    rw [if_neg hce, hlcid] at hfits
    rw [if_neg hce, if_neg hce]
    obtain ⟨a', hassemble, hadded⟩ :=
      @assembleCe_taCmd S bearer conRes a done rest entry cePayload hpdu hlcid hpayload hfits
    refine ⟨a', [.taCmd cePayload.tagId.toNat cePayload.taCmd], hassemble, ?_, ?_⟩
    · rwa [hlcid]
    · rw [Contributes, if_neg hce, if_neg hne]
      exact ⟨cePayload, hpayload, rfl⟩

theorem assembleSubpdus_spec {entries : List DlMsgLcInfo} (hpdu : a.pdu = layout done rest)
    (hentries : ∀ entry ∈ entries, Schedulable entry)
    (hfits : (entries.map requiredBytes).sum ≤ rest.length) :
    ∃ a' log, entries.foldlM (Assembly.assembleSubpdu bearer conRes) a = .ok a' ∧
      Added bearer a a' log (entries.map requiredBytes).sum ∧ Packed conRes entries log := by
  induction entries generalizing a done rest with
  | nil => exact ⟨a, [], rfl, .refl a 0, .nil⟩
  | cons entry entries ih =>
    obtain ⟨hentry, hothers⟩ := List.forall_mem_cons.mp hentries
    rw [List.map_cons, List.sum_cons] at hfits ⊢
    obtain ⟨mid, group, hfirst, hadded, hgroup⟩ := @assembleSubpdu_spec S bearer conRes a done rest
      entry hpdu hentry (Nat.le_trans (Nat.le_add_right _ _) hfits)
    obtain ⟨rest', hpdu', hrest'⟩ := hadded.pdu done rest hpdu
    have hle := hadded.le
    obtain ⟨a', log, hrun, hadded', hlog⟩ := ih hpdu' hothers (by omega)
    refine ⟨a', group ++ log, ?_, hadded.trans hadded', .cons hgroup hlog⟩
    rw [List.foldlM_cons, hfirst, ok_bind, hrun]

theorem assembleNewtxPdu_spec {buffer : List UInt8} {rlc : S} {entries : List DlMsgLcInfo} {tb : Nat}
    (hbuffer : tb ≤ buffer.length) (hentries : ∀ entry ∈ entries, Schedulable entry)
    (hfits : (entries.map requiredBytes).sum ≤ tb) :
    ∃ rlc' log tail, assembleNewtxPdu bearer conRes rlc (some buffer) entries tb =
        .ok (sentBytes log ++ tail, rlc', log) ∧
      (sentBytes log ++ tail).length = tb ∧ Packed conRes entries log ∧
      Handed bearer rlc (log.filter DlSubpdu.isSdu) rlc' ∧
      (tail = [] ∨ ∃ length, tail = encodeSubpdu (.padding length)) := by
  have htake : (buffer.take tb).length = tb := List.length_take_of_le hbuffer
  have hpdu : (⟨⟨buffer.take tb, 0⟩, rlc, []⟩ : Assembly S).pdu = layout [] (buffer.take tb) := rfl
  obtain ⟨a', log, hrun, hadded, hpacked⟩ := @assembleSubpdus_spec S bearer conRes _ [] (buffer.take tb)
    entries hpdu hentries (by rwa [htake])
  obtain ⟨rest', hpdu', hrest'⟩ := hadded.pdu _ _ hpdu
  have hlog : a'.log = log := hadded.log
  rw [List.nil_append] at hpdu'
  have hoffset : a'.pdu.byteOffset = (sentBytes log).length := by rw [hpdu']; rfl
  rw [assembleNewtxPdu, Option.filter_some, if_pos (by simpa using hbuffer)]
  dsimp only
  rw [hrun, ok_bind, hoffset, hlog, hpdu']
  by_cases hroom : (sentBytes log).length < tb
  · have hpadding : (layout (sentBytes log) rest').addPadding (tb - (sentBytes log).length) =
        .ok (layout (sentBytes log ++ encodeSubpdu (.padding (tb - (sentBytes log).length - 1)))
          (rest'.drop (1 + (tb - (sentBytes log).length - 1)))) := by
      have hpush := @push_ce (sentBytes log) rest' padding
        (List.replicate (tb - (sentBytes log).length - 1) 0) (tb - (sentBytes log).length - 1)
        (by rw [List.length_replicate]; omega)
      rwa [List.length_replicate] at hpush
    rw [if_pos hroom, hpadding, ok_bind, get_layout]
    refine ⟨a'.rlc, log, _, rfl, ?_, hpacked, hadded.rlc, .inr ⟨_, rfl⟩⟩
    rw [List.length_append, encodeSubpdu, List.length_cons, List.length_replicate]
    omega
  · rw [if_neg hroom, if_neg (by omega), get_layout]
    refine ⟨a'.rlc, log, [], ?_, ?_, hpacked, hadded.rlc, .inl rfl⟩
    · rw [List.append_nil]
      rfl
    · rw [List.append_nil]
      omega

end

/-- The receiver reads the TAG id and the value of a timing advance command. -/
def TaReadable (entry : DlMsgLcInfo) : Prop :=
  entry.lcid = LcidDlSch.taCmd →
    ∀ cePayload ∈ entry.cePayload, cePayload.tagId = 0 ∧ cePayload.taCmd < 64

theorem sent_taCmd_eq (tagId : UInt8) (ta : Nat) :
    sent (.taCmd tagId.toNat ta) = .taCmd tagId.toNat ta ↔ tagId = 0 ∧ ta < 64 := by
  have htag : tagId.toNat >>> 6 = tagId.toNat ↔ tagId = 0 := by
    rw [Nat.shiftRight_eq_div_pow]
    constructor
    · intro h
      exact UInt8.toNat.inj (by rw [UInt8.toNat_zero]; omega)
    · rintro rfl
      rfl
  have hta : ta &&& 0x3f = ta ↔ ta < 64 := by
    have hmask : ta &&& 0x3f = ta % 2 ^ 6 := Nat.and_two_pow_sub_one_eq_mod ta 6
    omega
  simp only [sent, DlSubpdu.taCmd.injEq, htag, hta]

theorem contributes_sent {conRes : Vector UInt8 6} {entry : DlMsgLcInfo} {group : List DlSubpdu}
    (hentry : Schedulable entry) (h : Contributes conRes entry group) :
    (∀ subpdu ∈ group, Encodable (sent subpdu)) ∧
      ((∀ subpdu ∈ group, sent subpdu = subpdu) ↔ TaReadable entry) := by
  rw [Contributes] at h
  by_cases hsdu : entry.lcid.isSdu = true
  · rw [if_pos hsdu] at h
    have hlcid : entry.lcid ≤ lcid32 := by simpa [isSdu] using hsdu
    refine ⟨?_, ?_⟩
    · intro subpdu hmem
      obtain ⟨bytes, rfl, -, hlength⟩ := h subpdu hmem
      exact ⟨hlcid, hlength⟩
    · refine iff_of_true ?_ ?_
      · intro subpdu hmem
        obtain ⟨bytes, rfl, -, -⟩ := h subpdu hmem
        rfl
      · intro hta
        rw [hta] at hsdu
        exact absurd hsdu (by decide)
  · rw [if_neg hsdu] at h
    by_cases hcon : entry.lcid = ueConResId
    · rw [if_pos hcon] at h
      subst h
      refine ⟨?_, iff_of_true ?_ ?_⟩
      · intro subpdu hmem
        rw [List.mem_singleton.mp hmem]
        exact length_conRes conRes
      · intro subpdu hmem
        rw [List.mem_singleton.mp hmem]
        rfl
      · intro hta
        rw [hta] at hcon
        exact absurd hcon (by decide)
    · rw [if_neg hcon] at h
      obtain ⟨cePayload, hpayload, rfl⟩ := h
      have hlcid : entry.lcid = LcidDlSch.taCmd := by
        rcases hentry with ⟨h, -⟩ | h | ⟨h, -⟩
        · exact absurd h hsdu
        · exact absurd h hcon
        · exact h
      refine ⟨?_, ?_⟩
      · intro subpdu hmem
        rw [List.mem_singleton.mp hmem]
        refine ⟨?_, Nat.and_lt_two_pow (n := 6) _ (by decide)⟩
        have := cePayload.tagId.toNat_lt
        rw [Nat.shiftRight_eq_div_pow]
        omega
      · rw [TaReadable, List.forall_mem_singleton, sent_taCmd_eq]
        constructor
        · rintro hzero - other hother
          rw [hpayload] at hother
          obtain rfl := Option.some.inj hother
          exact hzero
        · exact fun hall => hall hlcid cePayload hpayload

theorem packed_sent {conRes : Vector UInt8 6} {entries : List DlMsgLcInfo} {log : List DlSubpdu}
    (hentries : ∀ entry ∈ entries, Schedulable entry) (h : Packed conRes entries log) :
    (∀ subpdu ∈ log, Encodable (sent subpdu)) ∧
      ((∀ subpdu ∈ log, sent subpdu = subpdu) ↔ ∀ entry ∈ entries, TaReadable entry) := by
  induction h with
  | nil => simp
  | cons first _ ih =>
    obtain ⟨hentry, hothers⟩ := List.forall_mem_cons.mp hentries
    obtain ⟨hencodable, hsent⟩ := contributes_sent hentry first
    obtain ⟨hencodable', hsent'⟩ := ih hothers
    simp only [List.forall_mem_append, List.forall_mem_cons, hsent, hsent', and_true]
    exact ⟨hencodable, hencodable'⟩

def DlSubpdu.isPadding : DlSubpdu → Bool
  | .padding _ => true
  | _ => false

/-- The block has its size, is made of the scheduled subPDUs and of what the RLC handed over, and the
receiver decodes these, followed only by padding. -/
structure ReadsBack {S : Type} (bearer : MacSduTxBuilder S) (conRes : Vector UInt8 6) (rlc : S)
    (entries : List DlMsgLcInfo) (tb : Nat) (bytes : List UInt8) (rlc' : S) (log : List DlSubpdu) :
    Prop where
  length : bytes.length = tb
  packed : Packed conRes entries log
  handed : Handed bearer rlc (log.filter DlSubpdu.isSdu) rlc'
  decoded : ∃ pads, decodeDlSch bytes = some (log ++ pads) ∧
    ∀ subpdu ∈ pads, DlSubpdu.isPadding subpdu = true

theorem decoded_iff {log : List DlSubpdu} {tail : List UInt8}
    (hencodable : ∀ subpdu ∈ log, Encodable (sent subpdu))
    (htail : tail = [] ∨ ∃ length, tail = encodeSubpdu (.padding length)) :
    (∃ pads, decodeDlSch (sentBytes log ++ tail) = some (log ++ pads) ∧
      ∀ subpdu ∈ pads, DlSubpdu.isPadding subpdu = true) ↔ ∀ subpdu ∈ log, sent subpdu = subpdu := by
  have hall : ∀ subpdu ∈ log.map sent, Encodable subpdu := by
    intro subpdu hmem
    obtain ⟨original, horiginal, rfl⟩ := List.mem_map.mp hmem
    exact hencodable original horiginal
  obtain ⟨hplain, hpadded⟩ := decodeDlSch_encode hall
  obtain ⟨tailPads, hdecode, hpads⟩ : ∃ tailPads,
      decodeDlSch (sentBytes log ++ tail) = some (log.map sent ++ tailPads) ∧
        ∀ subpdu ∈ tailPads, DlSubpdu.isPadding subpdu = true := by
    rcases htail with rfl | ⟨length, rfl⟩
    · exact ⟨[], by rw [List.append_nil, List.append_nil]; exact hplain, nofun⟩
    · exact ⟨[.padding length], hpadded length, by simp [DlSubpdu.isPadding]⟩
  have hself : log.map sent = log ↔ ∀ subpdu ∈ log, sent subpdu = subpdu := by
    simpa using List.map_inj_left (l := log) (f := sent) (g := id)
  rw [hdecode, ← hself]
  constructor
  · rintro ⟨pads, hsame, -⟩
    exact (List.append_inj (Option.some.inj hsame) (List.length_map _)).1
  · intro hsame
    exact ⟨tailPads, by rw [hsame], hpads⟩

theorem decodeDlSch_zeros {tb : Nat} (h : tb ≠ 0) {pads : List DlSubpdu}
    (hpads : ∀ subpdu ∈ pads, DlSubpdu.isPadding subpdu = true) :
    decodeDlSch (List.replicate tb 0) ≠ some pads := by
  obtain ⟨n, rfl⟩ := Nat.exists_eq_succ_of_ne_zero h
  have hlcid : MacUlSchSubpdu.lcidOf 0 = ccch := by decide
  have hf : MacUlSchSubpdu.fBitOf 0 = false := by decide
  have hsdu : isSdu ccch = true := by decide
  intro hdecode
  cases n with
  | zero => simp [decodeDlSch, decodeDlSchLoop, hlcid, hf, hsdu] at hdecode
  | succ n =>
    rw [decodeDlSch, List.length_replicate, List.replicate_succ, List.replicate_succ] at hdecode
    simp only [decodeDlSchLoop, hlcid, hf, hsdu, if_true, UInt8.toNat_zero, Nat.not_lt_zero,
      if_false] at hdecode
    obtain ⟨others, -, rfl⟩ := Option.map_eq_some_iff.mp hdecode
    exact absurd (hpads _ (List.mem_cons_self ..)) (by simp [DlSubpdu.isPadding])

/-- No byte is added, and the encoded part stays. -/
def SduRejected (p : DlSchPdu) (lcid : LcidDlSch) (sdu : List UInt8) : Prop :=
  ∃ p', p.addSdu lcid sdu = .ok (0, p') ∧ p'.get = p.get ∧ p'.byteOffset = p.byteOffset

theorem addSdu_rejected_iff {p : DlSchPdu} {lcid : LcidDlSch} {sdu : List UInt8}
    (hoffset : p.byteOffset ≤ p.pdu.length) (hsdu : sdu ≠ [])
    (hlarge : p.nofEmptyBytes < getMacSduRequiredBytes sdu.length) :
    SduRejected p lcid sdu ↔
      p.nofEmptyBytes < minMacSubhdrAndSduSpaceRequired lcid ∨
        p.nofEmptyBytes = 258 ∧ sdu.length = 256 := by
  obtain ⟨done, rest, rfl⟩ : ∃ done rest, p = layout done rest := by
    refine ⟨p.pdu.take p.byteOffset, p.pdu.drop p.byteOffset, ?_⟩
    simp only [layout, List.take_append_drop, List.length_take_of_le hoffset]
  have hlength : 0 < sdu.length := List.length_pos_of_ne_nil hsdu
  have hempty : sdu.isEmpty = false := by simpa using hsdu
  have hsizes := subheaderSize_cases hlength
  have hthree := three_le_minSpace lcid
  rw [getMacSduRequiredBytes] at hlarge
  rw [nofEmptyBytes_layout] at hlarge ⊢
  rw [SduRejected, DlSchPdu.addSdu, hempty, if_neg Bool.false_ne_true]
  by_cases hspace : rest.length < minMacSubhdrAndSduSpaceRequired lcid
  · have hnone : (layout done rest).getSduEncoder lcid sdu.length = none := by
      rw [DlSchPdu.getSduEncoder, if_neg (by omega), nofEmptyBytes_layout, if_pos hspace]
    rw [hnone]
    exact iff_of_true ⟨_, rfl, rfl, rfl⟩ (.inl hspace)
  · obtain ⟨enc, henc⟩ : ∃ enc, (layout done rest).getSduEncoder lcid sdu.length = some enc := by
      rw [DlSchPdu.getSduEncoder, if_neg (by omega), nofEmptyBytes_layout, if_neg hspace]
      exact ⟨_, rfl⟩
    obtain ⟨hoffer, hmax, -⟩ := getSduEncoder_some henc
    rw [nofEmptyBytes_layout, getMacSduRequiredBytes, Nat.min_eq_left hlarge.le] at hmax
    have henclen := subheaderSize_cases hoffer.pos
    rw [← hoffer.subhrLen] at henclen
    have hpayload : enc.maxSduSize = if rest.length ≤ 257 then rest.length - 2 else rest.length - 3 :=
      hmax
    rw [henc]
    dsimp only
    by_cases hin : enc.subhrLen + sdu.length ≤ rest.length
    · have hreject : (layout done (overwriteBytes rest enc.subhrLen sdu)).encodeSdu enc sdu.length =
          .ok (0, layout done (overwriteBytes rest enc.subhrLen sdu)) := by
        rw [DlSchPdu.encodeSdu, if_pos]
        split at hpayload <;> omega
      rw [write_layout hin, ok_bind, hreject]
      refine iff_of_true ⟨_, rfl, by simp, rfl⟩ (.inr ?_)
      split at hpayload <;> omega
    · rw [write_outside (Nat.lt_of_not_le hin)]
      refine iff_of_false ?_ ?_
      · rintro ⟨p', hok, -⟩
        cases hok
      · rintro (h | ⟨hrest, hsdu⟩)
        · exact hspace h
        · split at hpayload <;> omega

section
variable {S : Type} {bearer : MacSduTxBuilder S} {conRes : Vector UInt8 6} {rlc : S}
  {entries : List DlMsgLcInfo} {tb : Nat}

section
variable (hentries : ∀ entry ∈ entries, Schedulable entry)
include hentries

theorem packed_noBytes (hfits : (entries.map requiredBytes).sum = 0) :
    Packed conRes entries [] ∧ ∀ entry ∈ entries, TaReadable entry := by
  induction entries with
  | nil => exact ⟨.nil, nofun⟩
  | cons entry entries ih =>
    obtain ⟨hentry, hothers⟩ := List.forall_mem_cons.mp hentries
    rw [List.map_cons, List.sum_cons] at hfits
    obtain ⟨hpacked, hall⟩ := ih hothers (by omega)
    have hsdu : entry.lcid.isSdu = true := by
      by_contra hce
      rw [requiredBytes, if_neg hce] at hfits
      omega
    refine ⟨@Packed.cons conRes entry entries [] [] ?_ hpacked, List.forall_mem_cons.mpr ⟨?_, hall⟩⟩
    · rw [Contributes, if_pos hsdu]
      exact nofun
    · intro hta
      rw [hta] at hsdu
      exact absurd hsdu (by decide)

/-- A block with a buffer reads back exactly when every scheduled timing advance command does. -/
theorem assembleNewtxPdu_iff {buffer : Option (List UInt8)} (hfits : (entries.map requiredBytes).sum ≤ tb) :
    (∃ bytes rlc' log, assembleNewtxPdu bearer conRes rlc buffer entries tb = .ok (bytes, rlc', log) ∧
        ReadsBack bearer conRes rlc entries tb bytes rlc' log) ↔
      (tb = 0 ∨ ∃ bytes ∈ buffer, tb ≤ bytes.length) ∧ ∀ entry ∈ entries, TaReadable entry := by
  by_cases havailable : ∃ bytes ∈ buffer, tb ≤ bytes.length
  · obtain ⟨bytes, hmem, hle⟩ := havailable
    obtain rfl : buffer = some bytes := hmem
    obtain ⟨rlc', log, tail, hassemble, hlength, hpacked, hhanded, htail⟩ :=
      @assembleNewtxPdu_spec S bearer conRes bytes rlc entries tb hle hentries hfits
    obtain ⟨hencodable, hsent⟩ := packed_sent hentries hpacked
    have hdecoded := decoded_iff hencodable htail
    rw [hassemble, ← hsent, ← hdecoded]
    constructor
    · rintro ⟨bytes', rlc'', log', hok, hreads⟩
      cases hok
      exact ⟨.inr ⟨bytes, rfl, hle⟩, hreads.decoded⟩
    · rintro ⟨-, hdecode⟩
      exact ⟨_, _, _, rfl, hlength, hpacked, hhanded, hdecode⟩
  · have hnone : buffer.filter (·.length ≥ tb) = none := by
      rw [Option.filter_eq_none_iff]
      intro bytes hmem hle
      exact havailable ⟨bytes, hmem, of_decide_eq_true hle⟩
    rw [assembleNewtxPdu, hnone]
    dsimp only
    by_cases hzero : tb = 0
    · subst hzero
      obtain ⟨hpacked, hall⟩ := @packed_noBytes conRes entries hentries (Nat.le_zero.mp hfits)
      exact iff_of_true ⟨[], rlc, [], rfl, rfl, hpacked, .refl rlc, [], rfl, nofun⟩
        ⟨.inl rfl, hall⟩
    · refine iff_of_false ?_ fun h => h.1.elim hzero havailable
      rintro ⟨bytes, rlc', log, hok, hreads⟩
      cases hok
      obtain ⟨pads, hdecode, hpads⟩ := hreads.decoded
      exact decodeDlSch_zeros hzero hpads hdecode

theorem assembleNewtxPdu_length {buffer : Option (List UInt8)} (hfits : (entries.map requiredBytes).sum ≤ tb) :
    ∃ bytes rlc' log, assembleNewtxPdu bearer conRes rlc buffer entries tb = .ok (bytes, rlc', log) ∧
      bytes.length = tb := by
  cases hfilter : buffer.filter (·.length ≥ tb) with
  | none =>
    rw [assembleNewtxPdu, hfilter]
    exact ⟨_, _, _, rfl, List.length_replicate ..⟩
  | some bytes =>
    obtain ⟨rfl, hle⟩ := Option.filter_eq_some_iff.mp hfilter
    obtain ⟨rlc', log, tail, hassemble, hlength, -⟩ :=
      @assembleNewtxPdu_spec S bearer conRes bytes rlc entries tb (of_decide_eq_true hle) hentries hfits
    exact ⟨_, _, _, hassemble, hlength⟩

end

/-- Every block has its size. It reads back when there is a buffer and the timing advance commands are
for TAG 0; an SDU that does not fit is rejected when there is no space for the smallest SDU, or in the one
case where the SDU is longer than the encoder offers and yet within the block. -/
theorem dlSchPdu_assembly {buffer : Option (List UInt8)} {p : DlSchPdu} {lcid : LcidDlSch}
    {sdu : List UInt8} (hentries : ∀ entry ∈ entries, Schedulable entry)
    (hfits : (entries.map requiredBytes).sum ≤ tb) (hoffset : p.byteOffset ≤ p.pdu.length)
    (hsdu : sdu ≠ []) (hlarge : p.nofEmptyBytes < getMacSduRequiredBytes sdu.length) :
    (∃ bytes rlc' log, assembleNewtxPdu bearer conRes rlc buffer entries tb = .ok (bytes, rlc', log) ∧
      bytes.length = tb) ∧
    ((∃ bytes rlc' log, assembleNewtxPdu bearer conRes rlc buffer entries tb = .ok (bytes, rlc', log) ∧
        ReadsBack bearer conRes rlc entries tb bytes rlc' log) ↔
      (tb = 0 ∨ ∃ bytes ∈ buffer, tb ≤ bytes.length) ∧ ∀ entry ∈ entries, TaReadable entry) ∧
    (SduRejected p lcid sdu ↔
      p.nofEmptyBytes < minMacSubhdrAndSduSpaceRequired lcid ∨
        p.nofEmptyBytes = 258 ∧ sdu.length = 256) :=
  ⟨assembleNewtxPdu_length hentries hfits, assembleNewtxPdu_iff hentries hfits,
    addSdu_rejected_iff hoffset hsdu hlarge⟩

end

def twoByteBearer : MacSduTxBuilder Unit where
  onNewTxSdu := fun _ _ size => (List.replicate size 7, min 2 size, ())
  length_eq := fun _ _ _ => List.length_replicate ..
  length_le := fun _ _ _ => Nat.min_le_right _ _

/-- A timing advance command for TAG 0 and an SDU. -/
def tag0Entries : List DlMsgLcInfo :=
  [{ lcid := LcidDlSch.taCmd, cePayload := some ⟨0, 31⟩ }, { lcid := 4, schedBytes := 2 }]

theorem dlSchPdu_assembly_tag0 :
    (∃ bytes rlc' log, assembleNewtxPdu twoByteBearer (Vector.replicate 6 1) () (some (.replicate 8 0))
        tag0Entries 7 = .ok (bytes, rlc', log) ∧
        ReadsBack twoByteBearer (Vector.replicate 6 1) () tag0Entries 7 bytes rlc' log) ∧
      SduRejected ⟨[9, 9, 9], 1⟩ 1 [7] := by
  obtain ⟨-, hblock, hsdu⟩ := @dlSchPdu_assembly Unit twoByteBearer (Vector.replicate 6 1) ()
    tag0Entries 7 (some (.replicate 8 0)) ⟨[9, 9, 9], 1⟩ 1 [7]
    (by simp [tag0Entries, Schedulable]; decide) (by decide) (by decide) (by decide) (by decide)
  refine ⟨hblock.mpr ⟨.inr ⟨_, rfl, by decide⟩, ?_⟩, hsdu.mpr (.inl (by decide))⟩
  intro entry hmem _ cePayload hpayload
  rcases List.mem_cons.mp hmem with rfl | hmem
  · obtain rfl := Option.some.inj hpayload
    decide
  · rw [List.mem_singleton.mp hmem] at hpayload
    cases hpayload

/-- A timing advance command for TAG 1 is read as one for TAG 0, and an SDU of four bytes is copied over
the end of a block with four bytes left. -/
theorem dlSchPdu_tag1_misread :
    ¬ ((∃ bytes rlc' log, assembleNewtxPdu twoByteBearer (Vector.replicate 6 1) () (some [0, 0, 0, 0])
          [{ lcid := LcidDlSch.taCmd, cePayload := some ⟨1, 31⟩ }] 3 = .ok (bytes, rlc', log) ∧
          ReadsBack twoByteBearer (Vector.replicate 6 1) ()
            [{ lcid := LcidDlSch.taCmd, cePayload := some ⟨1, 31⟩ }] 3 bytes rlc' log)) ∧
      ¬ SduRejected ⟨[9, 9, 9, 9, 9], 1⟩ 0 [7, 7, 7, 7] := by
  constructor
  · rw [assembleNewtxPdu_iff (by simp [Schedulable]) (by decide)]
    rintro ⟨-, hall⟩
    have htag := hall _ (List.mem_singleton_self _) rfl ⟨1, 31⟩ rfl
    exact absurd htag.1 (by decide)
  · rw [addSdu_rejected_iff (by decide) (by decide) (by decide)]
    decide

end Srsran.Mac
