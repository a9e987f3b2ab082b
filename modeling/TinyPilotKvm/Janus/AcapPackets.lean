/-
# What a listener hears

The packets of one opening of the sound card come, in order and each at most once, from what the
encoder made of what was captured; and the timestamp of each is 960 times the number of packets that
the encoder had made before it (`audio_packets`).

Two chains of custody carry this.  The chunks that have been encoded, the one the encoder has in its
hands, those in the first ring and the one of the PCM thread are among the captured ones
(`UsAcap.Inv.chunks`).  The packets that were sent, the one in the plugin's hands, those in the
second ring and the encoder's are among the stamped ones (`UsAcap.Inv.way`).
-/
import TinyPilotKvm.Janus.Acap

namespace TinyPilotKvm

/-! ## 1. Chunks and packets on their way -/

/-- The chunk in the hands of the PCM thread. -/
def PcmPc.chunks (items : Nat → List UInt8) : PcmPc → List (List UInt8)
  | .acquire chunk | .copy chunk _ => [chunk]
  | .release ri => [items ri]
  | _ => []

def PcmPc.slot : PcmPc → Option Nat
  | .copy _ ri | .release ri => some ri
  | _ => none

/-- The chunk in the hands of the encoder's thread, until its result is written. -/
def EncPc.chunks (items : Nat → List UInt8) : EncPc → List (List UInt8)
  | .acquireOut ri | .encode ri _ => [items ri]
  | .releaseIn _ _ chunk _ | .write _ chunk _ => [chunk]
  | _ => []

def EncPc.slotIn : EncPc → Option Nat
  | .acquireOut ri | .skip ri | .encode ri _ | .releaseIn ri _ _ _ => some ri
  | _ => none

def EncPc.slotOut : EncPc → Option Nat
  | .encode _ ro | .releaseIn _ ro _ _ | .write ro _ _ | .releaseOut ro => some ro
  | _ => none

/-- The packet that the encoder has put into its item, and the item. -/
def EncPc.output : EncPc → Option (Nat × List UInt8)
  | .releaseIn _ ro _ (some packet) | .write ro _ (some packet) => some (ro, packet)
  | _ => none

/-- What the plugin makes of an item: the content of a packet, or nothing. -/
def AcapEncoded.contents (e : AcapEncoded) : List Rfc3550.Content :=
  e.fetched.toList.map fun got => (got.2.toUInt32, got.1, false)

/-- The packet that the encoder's thread is about to release. -/
def EncPc.contents (items : Nat → AcapEncoded) : EncPc → List Rfc3550.Content
  | .releaseOut ro => (items ro).contents
  | _ => []

/-- The packet in the hands of the plugin. -/
def GetPc.contents (items : Nat → AcapEncoded) : GetPc → List Rfc3550.Content
  | .read ri => (items ri).contents
  | .release _ got => got.toList.map fun got => (got.2.toUInt32, got.1, false)
  | .wrap data pts => [(pts.toUInt32, data, false)]
  | _ => []

def GetPc.slot : GetPc → Option Nat
  | .read ri | .release ri _ => some ri
  | _ => none

/-- Packets with the timestamps of an encoder that counts them. -/
def stamped (packets : List (List UInt8)) : List Rfc3550.Content :=
  packets.mapIdx fun k packet => (opusFrames * UInt32.ofNat k, packet, false)

theorem stamped_append_singleton (packets : List (List UInt8)) (packet : List UInt8) :
    stamped (packets ++ [packet])
      = stamped packets ++ [(opusFrames * UInt32.ofNat packets.length, packet, false)] :=
  List.mapIdx_concat

namespace UsAcap

/-- The packets that the encoder has made. -/
def packets (a : UsAcap) : List (List UInt8) := a.encodes.filterMap Prod.snd

/-- The packets between the encoder and `us_rtpa_wrap`. -/
def onTheWay (a : UsAcap) (plugin : GetPc) : List Rfc3550.Content :=
  plugin.contents a.encRing.items ++ a.encRing.queued.flatMap AcapEncoded.contents
    ++ a.enc.contents a.encRing.items

/-- What holds of an open card, with the plugin at `plugin` and `sent` sent since it was opened. -/
structure Inv (a : UsAcap) (plugin : GetPc) (sent : List Rfc3550.Content) : Prop where
  pcmRing : a.pcmRing.Inv acapRingSize
  encRing : a.encRing.Inv acapRingSize
  pcmHolds : ∀ i, a.pcm.slot = some i → (AcapThread.pcm, i) ∈ a.pcmRing.ring.producing
  encHoldsIn : ∀ i, a.enc.slotIn = some i → (AcapThread.enc, i) ∈ a.pcmRing.ring.consuming
  encHoldsOut : ∀ i, a.enc.slotOut = some i → (AcapThread.enc, i) ∈ a.encRing.ring.producing
  pluginHolds : ∀ i, plugin.slot = some i → (AcapThread.plugin, i) ∈ a.encRing.ring.consuming
  /-- The packet that the encoder has made is in its item. -/
  output : ∀ ro packet, a.enc.output = some (ro, packet) → 0 < packet.length ∧
    packet.length ≤ usRtpPayloadSize ∧ (a.encRing.items ro).data.take packet.length = packet
  pts : a.pts = opusFrames * UInt32.ofNat a.packets.length
  room : ∀ packet ∈ a.packets, packet.length ≤ usRtpPayloadSize
  /-- What was captured has been encoded, is on its way, or was dropped. -/
  chunks : (a.encodes.map Prod.fst ++ a.enc.chunks a.pcmRing.items ++ a.pcmRing.queued
    ++ a.pcm.chunks a.pcmRing.items).Sublist a.captured
  /-- What the encoder made has been sent, is on its way, or was dropped. -/
  way : (sent ++ a.onTheWay plugin).Sublist (stamped a.packets)

/-! ## 2. The PCM thread -/

section Threads

variable {a a' : UsAcap} {plugin : GetPc} {sent : List Rfc3550.Content}

/-- What the encoder's thread has in its hands depends on the item that it holds. -/
theorem chunks_congr {items items' : Nat → List UInt8} (pc : EncPc)
    (h : ∀ i, pc.slotIn = some i → items' i = items i) : pc.chunks items' = pc.chunks items := by
  cases pc with
  | acquireOut ri => rw [EncPc.chunks, EncPc.chunks, h ri rfl]
  | encode ri ro => rw [EncPc.chunks, EncPc.chunks, h ri rfl]
  | _ => rfl

/-- A step of the PCM thread that leaves its ring alone. -/
theorem Inv.pcmPc (h : a.Inv plugin sent) {pc : PcmPc} {stop : Bool}
    {captured : List (List UInt8)} (hslot : pc.slot = none)
    (hchunks : (a.encodes.map Prod.fst ++ a.enc.chunks a.pcmRing.items ++ a.pcmRing.queued
      ++ pc.chunks a.pcmRing.items).Sublist captured) :
    Inv { a with pcm := pc, stop := stop, captured := captured } plugin sent :=
  { h with
    pcmHolds := fun i hi => absurd (hslot.symm.trans hi) (by simp)
    chunks := hchunks }

theorem Inv.chunks_nil (h : a.Inv plugin sent) : (a.encodes.map Prod.fst
    ++ a.enc.chunks a.pcmRing.items ++ a.pcmRing.queued ++ []).Sublist a.captured := by
  rw [List.append_nil]
  exact (List.sublist_append_left _ _).trans h.chunks

/-- **The PCM thread** touches nothing behind the first ring. -/
theorem Inv.pcmStep (h : a.Inv plugin sent) {read : Option (List UInt8)}
    (hs : a.pcmStep read = some a') : a'.Inv plugin sent := by
  unfold UsAcap.pcmStep at hs
  split at hs
  case h_1 hpc =>
    obtain rfl := Option.some.inj hs
    have hslot : (if a.stop = true then PcmPc.leave else PcmPc.read).slot = none := by
      split <;> rfl
    have hchunks : (if a.stop = true then PcmPc.leave else PcmPc.read).chunks a.pcmRing.items
        = [] := by
      split <;> rfl
    exact h.pcmPc hslot (hchunks ▸ h.chunks_nil)
  case h_2 hpc =>
    split at hs
    · obtain rfl := Option.some.inj hs
      exact h.pcmPc rfl h.chunks_nil
    · rename_i chunk
      obtain rfl := Option.some.inj hs
      refine h.pcmPc rfl ?_
      have hnil := h.chunks_nil
      rw [List.append_nil] at hnil
      exact hnil.append (List.Sublist.refl [chunk])
  case h_3 chunk hpc =>
    split at hs
    · obtain rfl := Option.some.inj hs
      exact h.pcmPc rfl h.chunks_nil
    · rename_i ri ring hring
      obtain rfl := Option.some.inj hs
      obtain ⟨hinv, hqueued, hitems, hproducing, hconsuming⟩ := h.pcmRing.producerAcquire hring
      refine { h with pcmRing := hinv, pcmHolds := ?_, encHoldsIn := ?_, chunks := ?_ }
      · intro i hi
        obtain rfl : ri = i := Option.some.inj hi
        rw [hproducing]
        exact List.mem_cons_self
      · intro i hi
        rw [hconsuming]
        exact h.encHoldsIn i hi
      · have hchunks := h.chunks
        rw [hpc] at hchunks
        rw [hqueued, hitems]
        exact hchunks
  case h_4 chunk ri hpc =>
    obtain rfl := Option.some.inj hs
    have hheld := h.pcmHolds ri (by rw [hpc]; rfl)
    obtain ⟨hqueued, hself, hitems⟩ := h.pcmRing.fill hheld chunk
    refine { h with pcmRing := h.pcmRing, pcmHolds := ?_, chunks := ?_ }
    · intro i hi
      obtain rfl : ri = i := Option.some.inj hi
      exact hheld
    · have hchunks := h.chunks
      have henc := chunks_congr a.enc fun i hi => hitems _ i (h.encHoldsIn i hi)
      rw [hpc] at hchunks
      simp only [hqueued, henc, PcmPc.chunks, hself]
      exact hchunks
  case h_5 ri hpc =>
    obtain ⟨ring, hring, rfl⟩ := Option.map_eq_some_iff.mp hs
    have hheld := h.pcmHolds ri (by rw [hpc]; rfl)
    obtain ⟨ring', hring', hinv, hqueued, hitems, -, hconsuming⟩ := h.pcmRing.producerRelease hheld
    obtain rfl := Option.some.inj (hring'.symm.trans hring)
    refine { h with pcmRing := hinv, pcmHolds := ?_, encHoldsIn := ?_, chunks := ?_ }
    · exact fun i hi => absurd hi (by simp [PcmPc.slot])
    · intro i hi
      rw [hconsuming]
      exact h.encHoldsIn i hi
    · have hchunks := h.chunks
      rw [hpc] at hchunks
      simp only [hqueued, hitems, PcmPc.chunks, List.append_nil]
      simpa only [PcmPc.chunks, List.append_assoc] using hchunks
  case h_6 hpc =>
    obtain rfl := Option.some.inj hs
    exact h.pcmPc rfl h.chunks_nil
  case h_7 => exact absurd hs (by simp)

/-! ## 3. The encoder's thread -/

/-- What the plugin has in its hands depends on the item that it holds. -/
theorem contents_congr {items items' : Nat → AcapEncoded} {pc : GetPc}
    (h : ∀ i, pc.slot = some i → items' i = items i) :
    pc.contents items' = pc.contents items := by
  cases pc with
  | read ri => rw [GetPc.contents, GetPc.contents, h ri rfl]
  | _ => rfl

/-- A step of the encoder's thread that leaves both rings alone and has no packet to release. -/
theorem Inv.encPc (h : a.Inv plugin sent) {pc : EncPc} {stop : Bool} (hin : pc.slotIn = none)
    (hout : pc.slotOut = none) (hpacket : pc.output = none)
    (hchunks : pc.chunks a.pcmRing.items = []) (hcontents : pc.contents a.encRing.items = []) :
    Inv { a with enc := pc, stop := stop } plugin sent := by
  refine { h with encHoldsIn := ?_, encHoldsOut := ?_, output := ?_, chunks := ?_, way := ?_ }
  · exact fun i hi => absurd (hin.symm.trans hi) (by simp)
  · exact fun i hi => absurd (hout.symm.trans hi) (by simp)
  · exact fun ro packet hi => absurd (hpacket.symm.trans hi) (by simp)
  · refine List.Sublist.trans ?_ h.chunks
    rw [hchunks, List.append_nil]
    exact ((List.sublist_append_left _ _).append (List.Sublist.refl _)).append
      (List.Sublist.refl _)
  · refine List.Sublist.trans ?_ h.way
    rw [onTheWay, onTheWay, hcontents, List.append_nil]
    exact (List.Sublist.refl _).append (List.sublist_append_left _ _)

/-- Filling the encoder's item changes no packet on its way. -/
theorem Inv.fillOut (h : a.Inv plugin sent) {ro : Nat}
    (hheld : (AcapThread.enc, ro) ∈ a.encRing.ring.producing) (e : AcapEncoded) :
    plugin.contents (a.encRing.fill ro e).items = plugin.contents a.encRing.items ∧
      (a.encRing.fill ro e).queued = a.encRing.queued ∧ (a.encRing.fill ro e).items ro = e := by
  obtain ⟨hqueued, hself, hitems⟩ := h.encRing.fill hheld e
  exact ⟨contents_congr fun i hi => hitems _ i (h.pluginHolds i hi), hqueued, hself⟩

/-- **The end of a turn**: the packet that was made is on its way under the next timestamp. -/
theorem Inv.writeEncoded (h : a.Inv plugin sent) {ro : Nat} {chunk : List UInt8}
    {packet : Option (List UInt8)} (hpc : a.enc = .write ro chunk packet) :
    (a.writeEncoded ro chunk packet).Inv plugin sent := by
  have hheld : (AcapThread.enc, ro) ∈ a.encRing.ring.producing :=
    h.encHoldsOut ro (by rw [hpc]; rfl)
  have hchunks := h.chunks
  have hway := h.way
  simp only [onTheWay, hpc, EncPc.chunks, EncPc.contents, List.append_nil] at hchunks hway
  cases packet with
  | none =>
    obtain ⟨hplugin, hqueued, hself⟩ := h.fillOut hheld { a.encRing.items ro with used := 0 }
    have hpackets : (a.writeEncoded ro chunk none).packets = a.packets ++ [] :=
      List.filterMap_append
    rw [List.append_nil] at hpackets
    have hcontents : AcapEncoded.contents { a.encRing.items ro with used := 0 } = [] := rfl
    refine { h with encRing := h.encRing, encHoldsIn := ?_, encHoldsOut := ?_, output := ?_,
                    pts := ?_, room := ?_, chunks := ?_, way := ?_ }
    · exact fun i hi => absurd hi (by simp [UsAcap.writeEncoded, EncPc.slotIn])
    · intro i hi
      obtain rfl : ro = i := Option.some.inj hi
      exact hheld
    · exact fun ro packet hi => absurd hi (by simp [UsAcap.writeEncoded, EncPc.output])
    · rw [hpackets]
      exact h.pts
    · rw [hpackets]
      exact h.room
    · simpa [UsAcap.writeEncoded, EncPc.chunks] using hchunks
    · rw [hpackets]
      simp only [onTheWay, UsAcap.writeEncoded, hplugin, hqueued, EncPc.contents, hself, hcontents,
        List.append_nil]
      exact hway
  | some bytes =>
    obtain ⟨hpos, hle, htake⟩ := h.output ro bytes (by rw [hpc]; rfl)
    obtain ⟨hplugin, hqueued, hself⟩ := h.fillOut hheld
      { a.encRing.items ro with used := bytes.length, pts := a.pts.toUInt64 }
    have hpackets : (a.writeEncoded ro chunk (some bytes)).packets = a.packets ++ [bytes] :=
      List.filterMap_append
    refine ⟨h.pcmRing, h.encRing, ?_, ?_, ?_, h.pluginHolds, ?_, ?_, ?_, ?_, ?_⟩
    · simpa only [UsAcap.writeEncoded] using h.pcmHolds
    · exact fun i hi => absurd hi (by simp [UsAcap.writeEncoded, EncPc.slotIn])
    · intro i hi
      obtain rfl : ro = i := Option.some.inj hi
      exact hheld
    · exact fun ro packet hi => absurd hi (by simp [UsAcap.writeEncoded, EncPc.output])
    · rw [hpackets, List.length_append, List.length_singleton, UInt32.ofNat_add,
        UInt32.mul_add, ← h.pts]
      exact congrArg (a.pts + ·) (UInt32.mul_one _).symm
    · rw [hpackets]
      exact List.forall_mem_append.mpr ⟨h.room, List.forall_mem_singleton.mpr hle⟩
    · simpa [UsAcap.writeEncoded, EncPc.chunks] using hchunks
    · have hcontents : AcapEncoded.contents
          { a.encRing.items ro with used := bytes.length, pts := a.pts.toUInt64 }
            = [(opusFrames * UInt32.ofNat a.packets.length, bytes, false)] := by
        have hgood : ¬(bytes.length = 0 ∨ usRtpPayloadSize < bytes.length) := by omega
        rw [AcapEncoded.contents, AcapEncoded.fetched, if_neg hgood, htake, ← h.pts]
        simp
      rw [hpackets, stamped_append_singleton]
      simp only [onTheWay, UsAcap.writeEncoded, hplugin, hqueued, EncPc.contents, hself, hcontents]
      rw [← List.append_assoc]
      exact hway.append (List.Sublist.refl _)

/-- **The encoder's thread**: what it takes from the first ring is dropped, or encoded and put into
the second. -/
theorem Inv.encStep (h : a.Inv plugin sent) {timedOut : Bool} {opus : Option (List UInt8)}
    (hs : a.encStep timedOut opus = some a') : a'.Inv plugin sent := by
  unfold UsAcap.encStep at hs
  split at hs
  case h_1 hpc =>
    obtain rfl := Option.some.inj hs
    by_cases hstop : a.stop = true
    · rw [if_pos hstop]
      exact h.encPc rfl rfl rfl rfl rfl
    · rw [if_neg hstop]
      exact h.encPc rfl rfl rfl rfl rfl
  case h_2 hpc =>
    split at hs
    · obtain rfl := Option.some.inj hs
      exact h.encPc rfl rfl rfl rfl rfl
    split at hs
    · obtain rfl := Option.some.inj hs
      exact h.encPc rfl rfl rfl rfl rfl
    · rename_i ri ring hring
      obtain rfl := Option.some.inj hs
      obtain ⟨hinv, hqueued, hitems, hproducing, hconsuming⟩ := h.pcmRing.consumerAcquire hring
      have hchunks := h.chunks
      have hway := h.way
      rw [onTheWay, hpc] at hway
      rw [hpc, hqueued] at hchunks
      refine { h with pcmRing := hinv, pcmHolds := ?_, encHoldsIn := ?_, encHoldsOut := ?_,
                      output := ?_, chunks := ?_, way := hway }
      · intro i hi
        rw [hproducing]
        exact h.pcmHolds i hi
      · intro i hi
        obtain rfl : ri = i := Option.some.inj hi
        rw [hconsuming]
        exact List.mem_cons_self
      · exact fun i hi => absurd hi (by simp [EncPc.slotOut])
      · exact fun ro packet hi => absurd hi (by simp [EncPc.output])
      · simpa [hitems, EncPc.chunks] using hchunks
  case h_3 ri hpc =>
    have hheld := h.encHoldsIn ri (by rw [hpc]; rfl)
    have hchunks := h.chunks
    have hway := h.way
    rw [hpc] at hchunks
    rw [onTheWay, hpc] at hway
    split at hs
    · obtain rfl := Option.some.inj hs
      refine { h with encHoldsIn := ?_, encHoldsOut := ?_, output := ?_, chunks := ?_, way := hway }
      · intro i hi
        obtain rfl : ri = i := Option.some.inj hi
        exact hheld
      · exact fun i hi => absurd hi (by simp [EncPc.slotOut])
      · exact fun ro packet hi => absurd hi (by simp [EncPc.output])
      · refine List.Sublist.trans ?_ hchunks
        exact ((((List.Sublist.refl _).append (List.nil_sublist _)).append
          (List.Sublist.refl _)).append (List.Sublist.refl _))
    · rename_i ro ring hring
      obtain rfl := Option.some.inj hs
      obtain ⟨hinv, hqueued, hitems, hproducing, hconsuming⟩ := h.encRing.producerAcquire hring
      refine { h with encRing := hinv, encHoldsIn := ?_, encHoldsOut := ?_, pluginHolds := ?_,
                      output := ?_, chunks := hchunks, way := ?_ }
      · intro i hi
        obtain rfl : ri = i := Option.some.inj hi
        exact hheld
      · intro i hi
        obtain rfl : ro = i := Option.some.inj hi
        rw [hproducing]
        exact List.mem_cons_self
      · intro i hi
        rw [hconsuming]
        exact h.pluginHolds i hi
      · exact fun ro packet hi => absurd hi (by simp [EncPc.output])
      · rw [onTheWay, hqueued, hitems]
        exact hway
  case h_4 ri hpc =>
    obtain ⟨ring, hring, rfl⟩ := Option.map_eq_some_iff.mp hs
    have hheld := h.encHoldsIn ri (by rw [hpc]; rfl)
    obtain ⟨ring', hring', hinv, hqueued, hitems, hproducing, -⟩ := h.pcmRing.consumerRelease hheld
    obtain rfl := Option.some.inj (hring'.symm.trans hring)
    have hchunks := h.chunks
    have hway := h.way
    rw [hpc] at hchunks
    rw [onTheWay, hpc] at hway
    refine { h with pcmRing := hinv, pcmHolds := ?_, encHoldsIn := ?_, encHoldsOut := ?_,
                    output := ?_, chunks := ?_, way := hway }
    · intro i hi
      rw [hproducing]
      exact h.pcmHolds i hi
    · exact fun i hi => absurd hi (by simp [EncPc.slotIn])
    · exact fun i hi => absurd hi (by simp [EncPc.slotOut])
    · exact fun ro packet hi => absurd hi (by simp [EncPc.output])
    · rw [hqueued, hitems]
      exact hchunks
  case h_5 ri ro hpc =>
    split at hs
    · rename_i hanswers
      obtain rfl := Option.some.inj hs
      have hin := h.encHoldsIn ri (by rw [hpc]; rfl)
      have hout := h.encHoldsOut ro (by rw [hpc]; rfl)
      have hchunks := h.chunks
      have hway := h.way
      rw [hpc] at hchunks
      rw [onTheWay, hpc] at hway
      let out : AcapEncoded := { a.encRing.items ro with
        data := writeBytes (a.encRing.items ro).data (opus.getD []) }
      obtain ⟨hplugin, hqueued, hself⟩ := h.fillOut hout out
      refine { h with encRing := h.encRing, encHoldsIn := ?_, encHoldsOut := ?_, output := ?_,
                      chunks := hchunks, way := ?_ }
      · intro i hi
        obtain rfl : ri = i := Option.some.inj hi
        exact hin
      · intro i hi
        obtain rfl : ro = i := Option.some.inj hi
        exact hout
      · intro ro' packet hi
        cases opus with
        | none => exact absurd hi (by simp [EncPc.output])
        | some bytes =>
          obtain ⟨rfl, rfl⟩ := Prod.mk.inj (Option.some.inj hi)
          obtain ⟨hpos, hle⟩ := of_decide_eq_true hanswers
          refine ⟨hpos, hle, ?_⟩
          show ((a.encRing.fill ro out).items ro).data.take bytes.length = bytes
          rw [hself]
          exact take_writeBytes _ bytes
      · simp only [onTheWay, EncPc.contents]
        rw [hplugin, hqueued]
        exact hway
    · exact absurd hs (by simp)
  case h_6 ri ro chunk packet hpc =>
    obtain ⟨ring, hring, rfl⟩ := Option.map_eq_some_iff.mp hs
    have hheld := h.encHoldsIn ri (by rw [hpc]; rfl)
    have hout := h.encHoldsOut ro (by rw [hpc]; rfl)
    have houtput := h.output
    obtain ⟨ring', hring', hinv, hqueued, hitems, hproducing, -⟩ := h.pcmRing.consumerRelease hheld
    obtain rfl := Option.some.inj (hring'.symm.trans hring)
    have hchunks := h.chunks
    have hway := h.way
    rw [hpc] at hchunks houtput
    rw [onTheWay, hpc] at hway
    refine { h with pcmRing := hinv, pcmHolds := ?_, encHoldsIn := ?_, encHoldsOut := ?_,
                    output := ?_, chunks := ?_, way := hway }
    · intro i hi
      rw [hproducing]
      exact h.pcmHolds i hi
    · exact fun i hi => absurd hi (by simp [EncPc.slotIn])
    · intro i hi
      obtain rfl : ro = i := Option.some.inj hi
      exact hout
    · cases packet with
      | none => exact fun ro packet hi => absurd hi (by simp [EncPc.output])
      | some bytes => exact houtput
    · rw [hqueued, hitems]
      exact hchunks
  case h_7 ro chunk packet hpc =>
    obtain rfl := Option.some.inj hs
    exact h.writeEncoded hpc
  case h_8 ro hpc =>
    obtain ⟨ring, hring, rfl⟩ := Option.map_eq_some_iff.mp hs
    have hheld := h.encHoldsOut ro (by rw [hpc]; rfl)
    obtain ⟨ring', hring', hinv, hqueued, hitems, -, hconsuming⟩ := h.encRing.producerRelease hheld
    obtain rfl := Option.some.inj (hring'.symm.trans hring)
    have hchunks := h.chunks
    have hway := h.way
    rw [hpc] at hchunks
    rw [onTheWay, hpc] at hway
    refine { h with encRing := hinv, encHoldsIn := ?_, encHoldsOut := ?_, pluginHolds := ?_,
                    output := ?_, chunks := hchunks, way := ?_ }
    · exact fun i hi => absurd hi (by simp [EncPc.slotIn])
    · exact fun i hi => absurd hi (by simp [EncPc.slotOut])
    · intro i hi
      rw [hconsuming]
      exact h.pluginHolds i hi
    · exact fun ro packet hi => absurd hi (by simp [EncPc.output])
    · simp only [onTheWay, hqueued, hitems, List.flatMap_append, List.flatMap_singleton,
        EncPc.contents, List.append_nil, List.append_assoc] at hway ⊢
      exact hway
  case h_9 hpc =>
    obtain rfl := Option.some.inj hs
    exact h.encPc rfl rfl rfl rfl rfl
  case h_10 => exact absurd hs (by simp)

/-! ## 4. The plugin -/

/-- A step of the plugin that leaves the card alone. -/
theorem Inv.pluginPc (h : a.Inv plugin sent) {pc : GetPc} {sent' : List Rfc3550.Content}
    {stop : Bool} (hslot : ∀ i, pc.slot = some i → plugin.slot = some i)
    (hcontents : (sent' ++ pc.contents a.encRing.items).Sublist
      (sent ++ plugin.contents a.encRing.items)) :
    Inv { a with stop := stop } pc sent' := by
  refine { h with pluginHolds := fun i hi => h.pluginHolds i (hslot i hi), way := ?_ }
  refine List.Sublist.trans ?_ h.way
  simp only [onTheWay, ← List.append_assoc]
  exact (hcontents.append (List.Sublist.refl _)).append (List.Sublist.refl _)

/-- The plugin takes the oldest packet. -/
theorem Inv.acquirePacket (h : a.Inv .acquire sent) {ri : Nat}
    {ring : RingItems AcapThread AcapEncoded}
    (hring : a.encRing.consumerAcquire .plugin = some (ri, ring)) :
    Inv { a with encRing := ring } (.read ri) sent := by
  obtain ⟨hinv, hqueued, hitems, hproducing, hconsuming⟩ := h.encRing.consumerAcquire hring
  refine { h with encRing := hinv, encHoldsOut := ?_, pluginHolds := ?_, output := ?_, way := ?_ }
  · intro i hi
    rw [hproducing]
    exact h.encHoldsOut i hi
  · intro i hi
    obtain rfl : ri = i := Option.some.inj hi
    rw [hconsuming]
    exact List.mem_cons_self
  · rw [hitems]
    exact h.output
  · have hway := h.way
    simp only [onTheWay, hqueued, List.flatMap_cons, GetPc.contents, List.nil_append] at hway
    simp only [onTheWay, GetPc.contents, hitems]
    exact hway

/-- The plugin gives the item back; it has a copy. -/
theorem Inv.releasePacket {ri : Nat} {got : Option (List UInt8 × UInt64)}
    (h : a.Inv (.release ri got) sent) :
    ∃ ring, a.encRing.consumerRelease .plugin ri = some ring ∧
      Inv { a with encRing := ring } (got.elim .top fun (data, pts) => .wrap data pts) sent := by
  obtain ⟨ring, hring, hinv, hqueued, hitems, hproducing, -⟩ :=
    h.encRing.consumerRelease (h.pluginHolds ri rfl)
  refine ⟨ring, hring, { h with encRing := hinv, encHoldsOut := ?_, pluginHolds := ?_,
                                output := ?_, way := ?_ }⟩
  · intro i hi
    rw [hproducing]
    exact h.encHoldsOut i hi
  · cases got <;> exact fun i hi => absurd hi (by simp [GetPc.slot])
  · rw [hitems]
    exact h.output
  · have hway := h.way
    rw [onTheWay, hqueued, hitems]
    cases got <;> exact hway

/-- What the plugin is about to wrap was made by the encoder, and fits. -/
theorem Inv.length_wrap {data : List UInt8} {pts : UInt64} (h : a.Inv (.wrap data pts) sent) :
    data.length ≤ usRtpPayloadSize := by
  have hmem : (pts.toUInt32, data, false) ∈ stamped a.packets := by
    refine h.way.subset (List.mem_append_right _ ?_)
    exact List.mem_append_left _ (List.mem_append_left _ List.mem_cons_self)
  obtain ⟨k, hk, hpacket⟩ := List.mem_mapIdx.mp hmem
  obtain ⟨-, hdata⟩ := Prod.mk.inj hpacket
  obtain ⟨rfl, -⟩ := Prod.mk.inj hdata
  exact h.room _ (List.getElem_mem hk)

end Threads

theorem inv_usAcapInit (hinit : usAcapInit = some a) : a.Inv .top [] := by
  unfold usAcapInit at hinit
  obtain ⟨pcmRing, hpcm, hinit⟩ := Option.bind_eq_some_iff.mp hinit
  obtain ⟨encRing, henc, hinit⟩ := Option.bind_eq_some_iff.mp hinit
  obtain rfl := Option.some.inj hinit
  have hnone {α : Type} {i : α} (h : none = some i) {P : Prop} : P := absurd h (by simp)
  exact {
    pcmRing := RingItems.inv_init acapRingSize_pos hpcm []
    encRing := RingItems.inv_init acapRingSize_pos henc usAuEncodedInit
    pcmHolds := fun i hi => hnone hi
    encHoldsIn := fun i hi => hnone hi
    encHoldsOut := fun i hi => hnone hi
    pluginHolds := fun i hi => hnone hi
    output := fun ro packet hi => hnone hi
    pts := rfl
    room := List.forall_mem_nil _
    chunks := by
      rw [RingItems.queued_init acapRingSize_pos hpcm]
      exact List.Sublist.refl []
    way := by
      rw [onTheWay, RingItems.queued_init acapRingSize_pos henc]
      exact List.Sublist.refl [] }

end UsAcap

/-- What holds of the plugin's audio; `contents` is what it has sent so far. -/
structure AcapInv (ssrc : UInt32) (s : AcapState) (contents : List Rfc3550.Content) : Prop where
  carries : s.rtpa.Carries ssrc contents
  sentBefore_le : s.sentBefore ≤ contents.length
  card : ∀ a, s.acap = some a → a.Inv s.plugin (contents.drop s.sentBefore)
  fault : s.fault = false

namespace AcapInv

variable {ssrc : UInt32} {s s' : AcapState} {contents : List Rfc3550.Content}

/-- A step of the plugin that sends nothing and gives nothing back. -/
theorem pluginPc {a : UsAcap} (h : AcapInv ssrc s contents) (ha : s.acap = some a) {pc : GetPc}
    (stop : Bool) (hslot : ∀ i, pc.slot = some i → s.plugin.slot = some i)
    (hcontents : (pc.contents a.encRing.items).Sublist (s.plugin.contents a.encRing.items)) :
    AcapInv ssrc { s with acap := some { a with stop := stop }, plugin := pc } contents := by
  refine { h with card := ?_ }
  rintro a' ha'
  obtain rfl := Option.some.inj ha'
  exact (h.card a ha).pluginPc hslot ((List.Sublist.refl _).append hcontents)

/-- The same with the card as it is. -/
theorem pluginPc' {a : UsAcap} (h : AcapInv ssrc s contents) (ha : s.acap = some a) {pc : GetPc}
    (hslot : ∀ i, pc.slot = some i → s.plugin.slot = some i)
    (hcontents : (pc.contents a.encRing.items).Sublist (s.plugin.contents a.encRing.items)) :
    AcapInv ssrc { s with plugin := pc } contents := by
  have hinv := h.pluginPc ha a.stop hslot hcontents
  rw [← ha] at hinv
  exact hinv

/-- **The plugin's thread** sends what it has taken out of the second ring. -/
theorem acapGetStep {a : UsAcap} (h : AcapInv ssrc s contents) (ha : s.acap = some a)
    {go timedOut : Bool} (hs : acapGetStep s a go timedOut = some s') :
    ∃ contents', AcapInv ssrc s' contents' := by
  have hnone {pc : GetPc} (hpc : pc.slot = none) : ∀ i, pc.slot = some i → s.plugin.slot = some i :=
    fun i hi => absurd (hpc.symm.trans hi) (by simp)
  have hcard := h.card a ha
  unfold TinyPilotKvm.acapGetStep at hs
  split at hs
  case h_1 hpc => exact absurd hs (by simp)
  case h_2 hpc =>
    obtain rfl := Option.some.inj hs
    cases go <;> exact ⟨contents, h.pluginPc' ha (hnone rfl) (List.nil_sublist _)⟩
  case h_3 hpc =>
    obtain rfl := Option.some.inj hs
    by_cases hstop : a.stop = true
    · rw [if_pos hstop]
      exact ⟨contents, h.pluginPc' ha (hnone rfl) (List.nil_sublist _)⟩
    · rw [if_neg hstop]
      exact ⟨contents, h.pluginPc' ha (hnone rfl) (List.nil_sublist _)⟩
  case h_4 hpc =>
    rw [hpc] at hcard
    split at hs
    · obtain rfl := Option.some.inj hs
      exact ⟨contents, h.pluginPc' ha (hnone rfl) (List.nil_sublist _)⟩
    split at hs
    · obtain rfl := Option.some.inj hs
      exact ⟨contents, h.pluginPc' ha (hnone rfl) (List.nil_sublist _)⟩
    · rename_i ri ring hring
      obtain rfl := Option.some.inj hs
      refine ⟨contents, { h with card := ?_ }⟩
      rintro a' ha'
      obtain rfl := Option.some.inj ha'
      exact hcard.acquirePacket hring
  case h_5 ri hpc =>
    obtain rfl := Option.some.inj hs
    refine ⟨contents, h.pluginPc' ha ?_ ?_⟩
    · rw [hpc]
      exact fun i hi => hi
    · rw [hpc]
      exact List.Sublist.refl _
  case h_6 ri got hpc =>
    rw [hpc] at hcard
    obtain ⟨ring, hring, hinv⟩ := hcard.releasePacket
    rw [hring] at hs
    obtain rfl := Option.some.inj hs
    refine ⟨contents, { h with card := ?_ }⟩
    rintro a' ha'
    obtain rfl := Option.some.inj ha'
    exact hinv
  case h_7 data pts hpc =>
    rw [hpc] at hcard
    obtain ⟨rtpa, hwrap, hlength, hcarries⟩ := h.carries.wrap hcard.length_wrap pts.toUInt32
    rw [hwrap] at hs
    obtain rfl := Option.some.inj hs
    have hdrop : (contents ++ [(pts.toUInt32, data, false)]).drop s.sentBefore
        = contents.drop s.sentBefore ++ [(pts.toUInt32, data, false)] :=
      List.drop_append_of_le_length h.sentBefore_le
    refine ⟨_, hcarries, ?_, ?_, h.fault⟩
    · rw [List.length_append]
      exact Nat.le_add_right_of_le h.sentBefore_le
    · rintro a' ha'
      obtain rfl : a = a' := Option.some.inj (ha.symm.trans ha')
      rw [hdrop]
      refine hcard.pluginPc (fun i hi => absurd hi (by simp [GetPc.slot])) ?_
      rw [List.append_assoc]
      exact List.Sublist.refl _
  case h_8 hpc =>
    obtain rfl := Option.some.inj hs
    exact ⟨contents, h.pluginPc ha _ (hnone rfl) (List.nil_sublist _)⟩
  case h_9 hpc =>
    split at hs
    · obtain rfl := Option.some.inj hs
      exact ⟨contents, { h with card := fun a' ha' => absurd ha' (by simp) }⟩
    · exact absurd hs (by simp)

/-- **The step.** -/
theorem step (h : AcapInv ssrc s contents) {act : AcapAct} (hs : acapStep s act = some s') :
    ∃ contents', AcapInv ssrc s' contents' := by
  cases act with
  | «open» =>
    dsimp only [acapStep] at hs
    split at hs
    · obtain ⟨a, hinit, rfl⟩ := Option.map_eq_some_iff.mp hs
      have hlength : s.rtpa.sent.length = contents.length := by
        have hpackets := congrArg List.length h.carries.packets
        simpa only [List.length_map, Rfc3550.length_numbered] using hpackets
      refine ⟨contents, { h with sentBefore_le := hlength.le, card := ?_ }⟩
      rintro a' ha'
      obtain rfl := Option.some.inj ha'
      show a.Inv .top (contents.drop s.rtpa.sent.length)
      rw [List.drop_eq_nil_of_le hlength.ge]
      exact UsAcap.inv_usAcapInit hinit
    · exact absurd hs (by simp)
  | pcm read =>
    obtain ⟨a, ha, hs⟩ := Option.bind_eq_some_iff.mp hs
    obtain ⟨a', hstep, rfl⟩ := Option.map_eq_some_iff.mp hs
    refine ⟨contents, { h with card := ?_ }⟩
    rintro a'' ha''
    obtain rfl := Option.some.inj ha''
    exact (h.card a ha).pcmStep hstep
  | enc timedOut opus =>
    obtain ⟨a, ha, hs⟩ := Option.bind_eq_some_iff.mp hs
    obtain ⟨a', hstep, rfl⟩ := Option.map_eq_some_iff.mp hs
    refine ⟨contents, { h with card := ?_ }⟩
    rintro a'' ha''
    obtain rfl := Option.some.inj ha''
    exact (h.card a ha).encStep hstep
  | get go timedOut =>
    obtain ⟨a, ha, hs⟩ := Option.bind_eq_some_iff.mp hs
    exact h.acapGetStep ha hs

theorem of_reach (hr : (acapSystem ssrc).Reach s) : ∃ contents, AcapInv ssrc s contents := by
  refine System.ReachVia.inv (I := fun s => ∃ contents, AcapInv ssrc s contents) ?_ ?_ hr
  · rintro s rfl
    exact ⟨[], UsRtpa.carries_init ssrc, Nat.le_refl _, fun a ha => absurd ha (by simp), rfl⟩
  · rintro s s' act ⟨contents, hI⟩ _ hst
    exact hI.step hst

end AcapInv

/-- **What a listener hears.**  However the three threads interleave, whatever the card, the encoder
and the clocks do, the datagrams are RTP packets of Opus numbered without a gap, of at most 1200
bytes.  Those of the open card are among the packets that the encoder made since it was opened, in
order and each at most once, and the timestamp of each is 960 times the number of packets made
before it; what was encoded was captured, in order; and no assertion of the rings fails. -/
theorem audio_packets {ssrc : UInt32} {s : AcapState} (hr : (acapSystem ssrc).Reach s) :
    ∃ contents, s.rtpa.sent.map UsRtp.packet = (Rfc3550.numbered 111 ssrc 0 contents).map some ∧
      (∀ rtp ∈ s.rtpa.sent, rtp.video = false ∧ rtp.used ≤ usRtpDatagramSize) ∧
      s.fault = false ∧
      ∀ a, s.acap = some a →
        (contents.drop s.sentBefore).Sublist (stamped a.packets) ∧
        (a.encodes.map Prod.fst).Sublist a.captured ∧
        a.pcmRing.ring.aborted = false ∧ a.encRing.ring.aborted = false := by
  obtain ⟨contents, hI⟩ := AcapInv.of_reach hr
  refine ⟨contents, hI.carries.packets, hI.carries.audio, hI.fault, fun a ha => ?_⟩
  have hcard := hI.card a ha
  refine ⟨(List.sublist_append_left _ _).trans hcard.way, ?_, hcard.pcmRing.not_aborted,
    hcard.encRing.not_aborted⟩
  refine List.Sublist.trans ?_ hcard.chunks
  simp only [List.append_assoc]
  exact List.sublist_append_left _ _

/-- A chunk is captured and encoded, and the plugin takes `get` steps. -/
def acapTurn (chunk : List UInt8) (opus : Option (List UInt8)) (get : Nat) : List AcapAct :=
  List.replicate 5 (.pcm (some chunk)) ++ List.replicate 7 (.enc false opus) ++
    List.replicate get (.get true false)

/-- Three chunks; the encoder fails at the first, and the packets of the others are sent. -/
def acapActs : List AcapAct :=
  .open :: [acapTurn [1] none 5, acapTurn [2] (some [7]) 6, acapTurn [3] (some [8, 9]) 6].flatten

/-- The timestamps are 0 and 960: that of the chunk that failed passes without a trace. -/
theorem audio_packets_two : ∃ s a, (acapSystem 5).Reach s ∧ s.acap = some a ∧
    a.captured = [[1], [2], [3]] ∧ s.rtpa.sent.map UsRtp.packet
      = [some (⟨false, 111, 0, 0, 5⟩, [7]), some (⟨false, 111, 1, 960, 5⟩, [8, 9])] := by
  have hrun : ((acapSystem 5).exec
      { acap := none, plugin := .idle, rtpa := usRtpaInit 5, sentBefore := 0, fault := false }
      acapActs).any (fun s => s.acap.any fun a => decide (s.rtpa.sent.length = 2 ∧
        s.sentBefore = 0 ∧ a.packets = [[7], [8, 9]] ∧ a.captured = [[1], [2], [3]])) = true := by
    decide +kernel
  obtain ⟨s, hexec, hs⟩ := (Option.any_eq_true _ _).mp hrun
  obtain ⟨a, ha, hs⟩ := (Option.any_eq_true _ _).mp hs
  obtain ⟨hlength, hbefore, hpackets, hcaptured⟩ := of_decide_eq_true hs
  have hr : (acapSystem 5).Reach s := System.Reach.exec _ (.start rfl) hexec
  obtain ⟨contents, hsent, -, -, hcard⟩ := audio_packets hr
  obtain ⟨hway, -, -, -⟩ := hcard a ha
  have hcontents : contents.length = 2 := by
    have hsame := congrArg List.length hsent
    rw [List.length_map, List.length_map, Rfc3550.length_numbered, hlength] at hsame
    exact hsame.symm
  rw [hbefore, hpackets] at hway
  have heq : contents = stamped [[7], [8, 9]] := hway.eq_of_length hcontents
  refine ⟨s, a, hr, ha, hcaptured, ?_⟩
  rw [hsent, heq]
  decide +kernel

end TinyPilotKvm
