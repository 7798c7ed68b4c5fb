import Srsran.EdgeRic.Registry
import Srsran.Lib.Runs

/-! Conservation of the counters of the MAC between the reports of the scheduler and the messages. -/
namespace Srsran.EdgeRic

inductive UeCounter where
  | dlTbs
  | ulTbs
  | dlAckedBytes
  | ulOkBytes
  | dlPrbs
  | ulPrbs
  | dlHarqAck
  | dlHarqNack
  | ulCrcOk
  | ulCrcFail
  deriving DecidableEq, Repr

inductive DrbCounter where
  | dlBytes
  | ulBytes
  deriving DecidableEq, Repr

/-- The counters of a UE and of its logical channels. -/
inductive Counter where
  | ue (counter : UeCounter)
  | drb (lcid : Nat) (counter : DrbCounter)
  deriving DecidableEq, Repr

def MacUeMetrics.counter (m : MacUeMetrics) : UeCounter → Nat
  | .dlTbs => m.dlTbs
  | .ulTbs => m.ulTbs
  | .dlAckedBytes => m.dlAckedBytes
  | .ulOkBytes => m.ulOkBytes
  | .dlPrbs => m.dlPrbs
  | .ulPrbs => m.ulPrbs
  | .dlHarqAck => m.dlHarqAck
  | .dlHarqNack => m.dlHarqNack
  | .ulCrcOk => m.ulCrcOk
  | .ulCrcFail => m.ulCrcFail

def MacDrbMetrics.counter (m : MacDrbMetrics) : DrbCounter → Nat
  | .dlBytes => m.dlBytes
  | .ulBytes => m.ulBytes

def held (er : EdgeRic) (rnti : Rnti) : Counter → Nat
  | .ue counter => (er.macUe.find? rnti).elim 0 fun m => m.counter counter
  | .drb lcid counter => (er.macDrb.find? (drbKey rnti lcid)).elim 0 fun m => m.counter counter

/-- The value of a counter in the part of a message that is about one UE. -/
def UeMetrics.counter (msg : UeMetrics) : Counter → Nat
  | .ue counter => msg.mac.elim 0 fun m => m.counter counter
  | .drb lcid counter => ((msg.macDrb.filter fun d => d.1 = lcid).map fun d => d.2.counter counter).sum

def TtiMetrics.exported (msg : TtiMetrics) (rnti : Rnti) (counter : Counter) : Nat :=
  ((msg.ues.filter fun ue => ue.rnti = rnti).map fun ue => ue.counter counter).sum

/-- The reports of one TTI, and the export. -/
inductive TelemetryEvent where
  | setMacUe (rnti : Rnti) (cqi : Nat) (snr : Float32) (dlBuffer ulBuffer dlTbs ulTbs : Nat)
  | setMacDrb (rnti : Rnti) (lcid dlBuffer ulBuffer dlBytes ulBytes : Nat)
  | addMacDrbDlBytes (rnti : Rnti) (lcid bytes : Nat)
  | addMacDrbUlBytes (rnti : Rnti) (lcid bytes : Nat)
  | setDlTbs (rnti : Rnti) (tbs : Nat)
  | setUlTbs (rnti : Rnti) (tbs : Nat)
  | setDlMcs (rnti : Rnti) (mcs : Nat)
  | setUlMcs (rnti : Rnti) (mcs : Nat)
  | setDlPrbs (rnti : Rnti) (prbs : Nat)
  | setUlPrbs (rnti : Rnti) (prbs : Nat)
  | incDlHarqAck (rnti : Rnti) (tbs : Nat)
  | incDlHarqNack (rnti : Rnti)
  | incUlCrcOk (rnti : Rnti) (tbs : Nat)
  | incUlCrcFail (rnti : Rnti)
  | reportMacDelays (rnti : Rnti)
      (ceDelay crcDelay pucchHarqDelay puschHarqDelay srToPuschDelay : Float32)
  | collectUeTelemetry (rnti : Rnti) (cqi : Nat) (snr : Float32) (dlBuffer ulBuffer : Nat)
  | sendTtiMetrics

def handle (er : EdgeRic) : TelemetryEvent → EdgeRic
  | .setMacUe rnti cqi snr dlBuffer ulBuffer dlTbs ulTbs =>
    er.setMacUe rnti cqi snr dlBuffer ulBuffer dlTbs ulTbs
  | .setMacDrb rnti lcid dlBuffer ulBuffer dlBytes ulBytes =>
    er.setMacDrb rnti lcid dlBuffer ulBuffer dlBytes ulBytes
  | .addMacDrbDlBytes rnti lcid bytes => er.addMacDrbDlBytes rnti lcid bytes
  | .addMacDrbUlBytes rnti lcid bytes => er.addMacDrbUlBytes rnti lcid bytes
  | .setDlTbs rnti tbs => er.setDlTbs rnti tbs
  | .setUlTbs rnti tbs => er.setUlTbs rnti tbs
  | .setDlMcs rnti mcs => er.setDlMcs rnti mcs
  | .setUlMcs rnti mcs => er.setUlMcs rnti mcs
  | .setDlPrbs rnti prbs => er.setDlPrbs rnti prbs
  | .setUlPrbs rnti prbs => er.setUlPrbs rnti prbs
  | .incDlHarqAck rnti tbs => er.incDlHarqAck rnti tbs
  | .incDlHarqNack rnti => er.incDlHarqNack rnti
  | .incUlCrcOk rnti tbs => er.incUlCrcOk rnti tbs
  | .incUlCrcFail rnti => er.incUlCrcFail rnti
  | .reportMacDelays rnti ceDelay crcDelay pucchHarqDelay puschHarqDelay srToPuschDelay =>
    er.reportMacDelays rnti ceDelay crcDelay pucchHarqDelay puschHarqDelay srToPuschDelay
  | .collectUeTelemetry rnti cqi snr dlBuffer ulBuffer =>
    er.collectUeTelemetry rnti cqi snr dlBuffer ulBuffer
  | .sendTtiMetrics => er.sendTtiMetrics

def TelemetryEvent.isSend : TelemetryEvent → Bool
  | .sendTtiMetrics => true
  | _ => false

def ueReport (rnti : Rnti) (increment : UeCounter → Nat) (rnti' : Rnti) : Counter → Nat
  | .ue counter => if rnti' = rnti then increment counter else 0
  | .drb _ _ => 0

def drbReport (rnti : Rnti) (lcid : Nat) (increment : DrbCounter → Nat) (rnti' : Rnti) :
    Counter → Nat
  | .ue _ => 0
  | .drb lcid' counter => if drbKey rnti' lcid' = drbKey rnti lcid then increment counter else 0

def TelemetryEvent.reported : TelemetryEvent → Rnti → Counter → Nat
  | .setMacUe rnti _ _ _ _ dlTbs ulTbs =>
    ueReport rnti fun | .dlTbs => dlTbs | .ulTbs => ulTbs | _ => 0
  | .setMacDrb rnti lcid _ _ dlBytes ulBytes =>
    drbReport rnti lcid fun | .dlBytes => dlBytes | .ulBytes => ulBytes
  | .addMacDrbDlBytes rnti lcid bytes => drbReport rnti lcid fun | .dlBytes => bytes | .ulBytes => 0
  | .addMacDrbUlBytes rnti lcid bytes => drbReport rnti lcid fun | .dlBytes => 0 | .ulBytes => bytes
  | .setDlTbs rnti tbs => ueReport rnti fun | .dlTbs => tbs | _ => 0
  | .setUlTbs rnti tbs => ueReport rnti fun | .ulTbs => tbs | _ => 0
  | .setDlPrbs rnti prbs => ueReport rnti fun | .dlPrbs => prbs | _ => 0
  | .setUlPrbs rnti prbs => ueReport rnti fun | .ulPrbs => prbs | _ => 0
  | .incDlHarqAck rnti tbs => ueReport rnti fun | .dlHarqAck => 1 | .dlAckedBytes => tbs | _ => 0
  | .incDlHarqNack rnti => ueReport rnti fun | .dlHarqNack => 1 | _ => 0
  | .incUlCrcOk rnti tbs => ueReport rnti fun | .ulCrcOk => 1 | .ulOkBytes => tbs | _ => 0
  | .incUlCrcFail rnti => ueReport rnti fun | .ulCrcFail => 1 | _ => 0
  | _ => fun _ _ => 0

/-- The registry, the messages that were sent and the events so far. -/
structure Telemetry where
  er : EdgeRic := {}
  sent : List TtiMetrics := []
  events : List TelemetryEvent := []

namespace Telemetry

def step (t : Telemetry) (event : TelemetryEvent) : Option Telemetry :=
  some {
    er := t.er.handle event
    sent := if event.isSend then t.sent ++ [t.er.ttiMetrics] else t.sent
    events := t.events ++ [event] }

def exported (t : Telemetry) (rnti : Rnti) (counter : Counter) : Nat :=
  (t.sent.map fun msg => msg.exported rnti counter).sum

def reported (t : Telemetry) (rnti : Rnti) (counter : Counter) : Nat :=
  (t.events.map fun event => event.reported rnti counter).sum

/-- What was reported has been exported or is still held. -/
def Conserved (t : Telemetry) : Prop :=
  ∀ rnti counter, t.exported rnti counter + held t.er rnti counter = t.reported rnti counter

/-- Values are only overwritten when they are zero, no counter overflows between two messages, and
when a message is sent the UEs of all logical channels that count something are UEs of the MAC. -/
def lossless (t : Telemetry) : TelemetryEvent → Bool
  | .setMacUe rnti .. =>
    held t.er rnti (.ue .dlTbs) = 0 && held t.er rnti (.ue .ulTbs) = 0
  | .setMacDrb rnti lcid .. =>
    held t.er rnti (.drb lcid .dlBytes) = 0 && held t.er rnti (.drb lcid .ulBytes) = 0
  | .addMacDrbDlBytes rnti lcid bytes => held t.er rnti (.drb lcid .dlBytes) + bytes < 2 ^ 32
  | .addMacDrbUlBytes rnti lcid bytes => held t.er rnti (.drb lcid .ulBytes) + bytes < 2 ^ 32
  | .setDlTbs rnti tbs => held t.er rnti (.ue .dlTbs) + tbs < 2 ^ 32
  | .setUlTbs rnti tbs => held t.er rnti (.ue .ulTbs) + tbs < 2 ^ 32
  | .setDlPrbs rnti prbs => held t.er rnti (.ue .dlPrbs) + prbs < 2 ^ 32
  | .setUlPrbs rnti prbs => held t.er rnti (.ue .ulPrbs) + prbs < 2 ^ 32
  | .incDlHarqAck rnti tbs =>
    held t.er rnti (.ue .dlHarqAck) + 1 < 2 ^ 32 &&
      held t.er rnti (.ue .dlAckedBytes) + tbs < 2 ^ 32
  | .incDlHarqNack rnti => held t.er rnti (.ue .dlHarqNack) + 1 < 2 ^ 32
  | .incUlCrcOk rnti tbs =>
    held t.er rnti (.ue .ulCrcOk) + 1 < 2 ^ 32 && held t.er rnti (.ue .ulOkBytes) + tbs < 2 ^ 32
  | .incUlCrcFail rnti => held t.er rnti (.ue .ulCrcFail) + 1 < 2 ^ 32
  | .sendTtiMetrics =>
    t.er.macDrb.entries.all fun e =>
      (e.2.dlBytes = 0 && e.2.ulBytes = 0) || t.er.macUe.contains e.1.ue
  | _ => true

end Telemetry

variable {er : EdgeRic} {rnti rnti' : Rnti} {lcid : Nat} {counter : Counter}

theorem held_ue {c : UeCounter} :
    held er rnti (.ue c) = ((er.macUe.find? rnti).getD {}).counter c := by
  rw [held]
  cases er.macUe.find? rnti with
  | none => cases c <;> rfl
  | some m => rfl

theorem held_drb {c : DrbCounter} :
    held er rnti (.drb lcid c) = ((er.macDrb.find? (drbKey rnti lcid)).getD {}).counter c := by
  rw [held]
  cases er.macDrb.find? (drbKey rnti lcid) with
  | none => cases c <;> rfl
  | some m => rfl

variable {f : MacUeMetrics → MacUeMetrics}

theorem held_updateMacUe {increment : UeCounter → Nat}
    (hf : ∀ c, (f ((er.macUe.find? rnti).getD {})).counter c = held er rnti (.ue c) + increment c) :
    held (er.updateMacUe rnti f) rnti' counter =
      held er rnti' counter + ueReport rnti increment rnti' counter := by
  cases counter with
  | drb lcid c => rfl
  | ue c =>
    rw [ueReport]
    split
    · rename_i heq
      rw [heq, ← hf, held_ue, EdgeRic.updateMacUe, OrdMap.find?_update, if_pos rfl]
      rfl
    · rename_i hne
      rw [held, EdgeRic.updateMacUe, OrdMap.find?_update, if_neg hne]
      rfl

theorem held_updateMacDrb {f : MacDrbMetrics → MacDrbMetrics} {increment : DrbCounter → Nat}
    (hf : ∀ c, (f ((er.macDrb.find? (drbKey rnti lcid)).getD {})).counter c =
      held er rnti (.drb lcid c) + increment c) :
    held (er.updateMacDrb rnti lcid f) rnti' counter =
      held er rnti' counter + drbReport rnti lcid increment rnti' counter := by
  cases counter with
  | ue c => rfl
  | drb lcid' c =>
    rw [drbReport]
    split
    · rename_i heq
      rw [held, held, heq, EdgeRic.updateMacDrb, OrdMap.find?_update, if_pos rfl]
      exact (hf c)
    · rename_i hne
      rw [held, EdgeRic.updateMacDrb, OrdMap.find?_update, if_neg hne]
      rfl

theorem addU32_eq {value increment : Nat} (h : value + increment < 2 ^ 32) :
    addU32 value increment = value + increment :=
  Nat.mod_eq_of_lt h

/-- A call that adds to one counter of the UE. -/
theorem held_addToUe (added : UeCounter) {increment : UeCounter → Nat} {n : Nat}
    (h : held er rnti (.ue added) + n < 2 ^ 32)
    (hf : ∀ m c, (f m).counter c = if c = added then addU32 (m.counter c) n else m.counter c)
    (hn : ∀ c, increment c = if c = added then n else 0) :
    held (er.updateMacUe rnti f) rnti' counter =
      held er rnti' counter + ueReport rnti increment rnti' counter := by
  apply held_updateMacUe
  intro c
  rw [hf, hn, held_ue]
  split
  · rename_i heq
    rw [heq]
    rw [held_ue] at h
    exact addU32_eq h
  · rfl

theorem ueReport_zero : ueReport rnti (fun _ => 0) rnti' counter = 0 := by
  cases counter with
  | ue c => exact ite_self 0
  | drb lcid c => rfl

theorem held_updateMacUe_same (hf : ∀ m c, (f m).counter c = m.counter c) :
    held (er.updateMacUe rnti f) rnti' counter = held er rnti' counter := by
  have hsame := @held_updateMacUe er rnti rnti' counter f (fun _ => 0) fun c =>
    (hf _ c).trans held_ue.symm
  rw [hsame, ueReport_zero, Nat.add_zero]

theorem held_handle {t : Telemetry} {event : TelemetryEvent} (h : t.lossless event = true)
    (hreport : event.isSend = false) :
    held (t.er.handle event) rnti' counter =
      held t.er rnti' counter + event.reported rnti' counter := by
  cases event with
  | setMacUe rnti cqi snr dlBuffer ulBuffer dlTbs ulTbs =>
    rw [Telemetry.lossless, Bool.and_eq_true, decide_eq_true_eq, decide_eq_true_eq] at h
    apply held_updateMacUe
    intro c
    cases c with
    | dlTbs =>
      rw [h.1, Nat.zero_add]
      rfl
    | ulTbs =>
      rw [h.2, Nat.zero_add]
      rfl
    | _ =>
      rw [held_ue]
      rfl
  | setMacDrb rnti lcid dlBuffer ulBuffer dlBytes ulBytes =>
    rw [Telemetry.lossless, Bool.and_eq_true, decide_eq_true_eq, decide_eq_true_eq] at h
    apply held_updateMacDrb
    intro c
    cases c with
    | dlBytes =>
      rw [h.1, Nat.zero_add]
      rfl
    | ulBytes =>
      rw [h.2, Nat.zero_add]
      rfl
  | addMacDrbDlBytes rnti lcid bytes =>
    rw [Telemetry.lossless, decide_eq_true_eq, held_drb] at h
    apply held_updateMacDrb
    intro c
    rw [held_drb]
    cases c with
    | dlBytes => exact addU32_eq h
    | ulBytes => rfl
  | addMacDrbUlBytes rnti lcid bytes =>
    rw [Telemetry.lossless, decide_eq_true_eq, held_drb] at h
    apply held_updateMacDrb
    intro c
    rw [held_drb]
    cases c with
    | dlBytes => rfl
    | ulBytes => exact addU32_eq h
  | setDlTbs rnti tbs =>
    exact held_addToUe .dlTbs (of_decide_eq_true h) (fun _ c => by cases c <;> rfl) fun c => by cases c <;> rfl
  | setUlTbs rnti tbs =>
    exact held_addToUe .ulTbs (of_decide_eq_true h) (fun _ c => by cases c <;> rfl) fun c => by cases c <;> rfl
  | setDlMcs rnti mcs =>
    exact held_updateMacUe_same fun _ c => by cases c <;> rfl
  | setUlMcs rnti mcs =>
    exact held_updateMacUe_same fun _ c => by cases c <;> rfl
  | setDlPrbs rnti prbs =>
    exact held_addToUe .dlPrbs (of_decide_eq_true h) (fun _ c => by cases c <;> rfl) fun c => by cases c <;> rfl
  | setUlPrbs rnti prbs =>
    exact held_addToUe .ulPrbs (of_decide_eq_true h) (fun _ c => by cases c <;> rfl) fun c => by cases c <;> rfl
  | incDlHarqAck rnti tbs =>
    rw [Telemetry.lossless, Bool.and_eq_true, decide_eq_true_eq, decide_eq_true_eq, held_ue,
      held_ue] at h
    apply held_updateMacUe
    intro c
    rw [held_ue]
    cases c with
    | dlHarqAck => exact addU32_eq h.1
    | dlAckedBytes => exact addU32_eq h.2
    | _ => rfl
  | incDlHarqNack rnti =>
    exact held_addToUe .dlHarqNack (of_decide_eq_true h) (fun _ c => by cases c <;> rfl) fun c => by cases c <;> rfl
  | incUlCrcOk rnti tbs =>
    rw [Telemetry.lossless, Bool.and_eq_true, decide_eq_true_eq, decide_eq_true_eq, held_ue,
      held_ue] at h
    apply held_updateMacUe
    intro c
    rw [held_ue]
    cases c with
    | ulCrcOk => exact addU32_eq h.1
    | ulOkBytes => exact addU32_eq h.2
    | _ => rfl
  | incUlCrcFail rnti =>
    exact held_addToUe .ulCrcFail (of_decide_eq_true h) (fun _ c => by cases c <;> rfl) fun c => by cases c <;> rfl
  | reportMacDelays rnti ceDelay crcDelay pucchHarqDelay puschHarqDelay srToPuschDelay =>
    exact held_updateMacUe_same fun _ c => by cases c <;> rfl
  | collectUeTelemetry rnti cqi snr dlBuffer ulBuffer =>
    exact held_updateMacUe_same fun _ c => by cases c <;> rfl
  | sendTtiMetrics => cases hreport

theorem held_sendTtiMetrics : held er.sendTtiMetrics rnti counter = 0 := by
  cases counter with
  | ue c =>
    rw [held, EdgeRic.sendTtiMetrics, OrdMap.find?_mapValues]
    cases er.macUe.find? rnti with
    | none => rfl
    | some m => cases c <;> rfl
  | drb lcid c =>
    rw [held, EdgeRic.sendTtiMetrics, OrdMap.find?_mapValues]
    cases er.macDrb.find? (drbKey rnti lcid) with
    | none => rfl
    | some m => cases c <;> rfl

theorem keys_filter {V : Type} {m : OrdMap Rnti V} :
    m.keys.filter (fun r => r = rnti) = if m.contains rnti then [rnti] else [] := by
  have hfilter : m.keys.filter (fun r => r = rnti) =
      (m.entries.filter fun e => e.1 = rnti).map Prod.fst := List.filter_map
  rw [hfilter, OrdMap.filter_key, OrdMap.contains]
  cases m.find? rnti with
  | none => rfl
  | some v => rfl

theorem exported_ttiMetrics : er.ttiMetrics.exported rnti counter =
    if er.macUe.contains rnti then (er.ueMetrics rnti).counter counter else 0 := by
  have hfilter : er.ttiMetrics.ues.filter (fun ue => ue.rnti = rnti) =
      (er.macUe.keys.filter fun r => r = rnti).map er.ueMetrics := List.filter_map
  rw [TtiMetrics.exported, hfilter, keys_filter]
  split
  · rfl
  · rfl

theorem drbKey_eq_iff {key : DrbKey} : key = drbKey rnti lcid ↔ key.ue = rnti ∧ key.bearer = lcid := by
  constructor
  · rintro rfl
    exact ⟨rfl, rfl⟩
  · rintro ⟨rfl, rfl⟩
    rfl

/-- The part of a message about one UE says what is held for it. -/
theorem counter_ueMetrics : (er.ueMetrics rnti).counter counter = held er rnti counter := by
  cases counter with
  | ue c => rfl
  | drb lcid c =>
    have hfilter : ((er.ueMetrics rnti).macDrb.filter fun d => d.1 = lcid) =
        ((er.macDrb.entries.filter fun e => e.1.ue = rnti).filter fun e => e.1.bearer = lcid).map
          fun e => (e.1.bearer, e.2) := List.filter_map
    have hkey : ((er.macDrb.entries.filter fun e => e.1.ue = rnti).filter fun e =>
          e.1.bearer = lcid) = er.macDrb.entries.filter fun e => e.1 = drbKey rnti lcid := by
      rw [List.filter_filter]
      apply List.filter_congr
      intro e _
      rw [← Bool.decide_and, decide_eq_decide, drbKey_eq_iff, and_comm]
    rw [UeMetrics.counter, hfilter, hkey, OrdMap.filter_key, held]
    cases er.macDrb.find? (drbKey rnti lcid) with
    | none => rfl
    | some m => exact Nat.add_zero _

theorem exported_eq_held {t : Telemetry} (h : t.lossless .sendTtiMetrics = true) :
    t.er.ttiMetrics.exported rnti counter = held t.er rnti counter := by
  rw [exported_ttiMetrics, counter_ueMetrics]
  split
  · rfl
  · rename_i hmac
    cases counter with
    | ue c =>
      rw [OrdMap.contains, Bool.not_eq_true, Option.isSome_eq_false_iff,
        Option.isNone_iff_eq_none] at hmac
      rw [held, hmac]
      rfl
    | drb lcid c =>
      rw [held]
      cases hfind : t.er.macDrb.find? (drbKey rnti lcid) with
      | none => rfl
      | some m =>
        rw [Telemetry.lossless, List.all_eq_true] at h
        have hentry := h _ (OrdMap.find?_eq_some_iff.mp hfind)
        have hue : (drbKey rnti lcid).ue = rnti := rfl
        rw [hue, Bool.eq_false_iff.mpr hmac, Bool.or_false, Bool.and_eq_true, decide_eq_true_eq,
          decide_eq_true_eq] at hentry
        cases c with
        | dlBytes => exact hentry.1.symm
        | ulBytes => exact hentry.2.symm

namespace Telemetry
variable {t t' : Telemetry} {event : TelemetryEvent}

theorem Conserved.step (h : t.Conserved) (hguard : t.lossless event = true)
    (hstep : t.step event = some t') : t'.Conserved := by
  cases hstep
  intro rnti counter
  have hold := h rnti counter
  have hreported : (t.events ++ [event]).map (fun event => event.reported rnti counter) =
      t.events.map (fun event => event.reported rnti counter) ++ [event.reported rnti counter] := by
    rw [List.map_append]
    rfl
  rw [reported, hreported, List.sum_append, List.sum_singleton]
  cases hsend : event.isSend with
  | true =>
    cases event with
    | sendTtiMetrics =>
      have hzero : held (t.er.handle .sendTtiMetrics) rnti counter = 0 := held_sendTtiMetrics
      rw [exported, if_pos rfl, List.map_append, List.sum_append, List.map_singleton,
        List.sum_singleton, exported_eq_held hguard, hzero]
      exact hold
    | _ => cases hsend
  | false =>
    rw [exported, if_neg Bool.false_ne_true, held_handle hguard hsend, ← Nat.add_assoc]
    exact congrArg (· + event.reported rnti counter) hold

/-- In every run that overwrites only zeros, lets no counter overflow, and sends messages only when the
UEs of all counting logical channels are UEs of the MAC: what was exported and what is held add up to
what was reported. -/
theorem telemetry_conserved
    (hrun : Runs.Reaches step (fun t event => t.lossless event = true) {} t) : t.Conserved := by
  have hstart : Conserved {} := fun _ counter => by cases counter <;> rfl
  apply hrun.invariant hstart
  intro s event s' hs hguard hstep
  exact hs.step hguard hstep

/-- Two UEs report, a message is sent, and one of them reports again. -/
theorem telemetry_conserved_twoUes : ∃ t : Telemetry,
    (t.exported 0x4601 (.ue .dlTbs) = 150 ∧ held t.er 0x4601 (.ue .dlTbs) = 30) ∧ t.Conserved := by
  have hobserved : (Runs.runAll (Runs.guarded step fun t event => t.lossless event = true) {}
      [.setDlTbs 0x4601 100, .setDlTbs 0x4601 50, .addMacDrbDlBytes 0x4601 4 90,
        .incDlHarqAck 0x4602 70, .sendTtiMetrics, .setDlTbs 0x4601 30]).map
      (fun t => (t.exported 0x4601 (.ue .dlTbs), held t.er 0x4601 (.ue .dlTbs))) =
      some (150, 30) := by
    decide +kernel
  obtain ⟨t, hrun, ht⟩ := Option.map_eq_some_iff.mp hobserved
  rw [Prod.mk.injEq] at ht
  exact ⟨t, ht, telemetry_conserved (Runs.reaches_of_runGuarded .start hrun)⟩

/-- The bytes of a logical channel whose UE the MAC has not reported otherwise are set to zero without
being exported. -/
theorem telemetry_bytesLost : ∃ t : Telemetry,
    Runs.Reaches step (fun _ _ => True) {} t ∧ ¬t.Conserved := by
  have hobserved : (Runs.runAll step {} [.addMacDrbDlBytes 0x4601 4 90, .sendTtiMetrics]).map
      (fun t => (t.exported 0x4601 (.drb 4 .dlBytes), held t.er 0x4601 (.drb 4 .dlBytes),
        t.reported 0x4601 (.drb 4 .dlBytes))) = some (0, 0, 90) := by
    decide +kernel
  obtain ⟨t, hrun, ht⟩ := Option.map_eq_some_iff.mp hobserved
  rw [Prod.mk.injEq, Prod.mk.injEq] at ht
  refine ⟨t, Runs.reaches_of_runAll .start (fun _ _ _ => trivial) hrun, ?_⟩
  intro hconserved
  have hsum := hconserved 0x4601 (.drb 4 .dlBytes)
  rw [ht.1, ht.2.1, ht.2.2] at hsum
  cases hsum

end Telemetry

end Srsran.EdgeRic
