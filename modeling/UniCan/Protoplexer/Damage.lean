import UniCan.Protoplexer.Soundness
import UniCan.Protoplexer.Wire

/-!
# Damaged messages are not delivered

Bits of the data of a message may flip on the way.  When the flipped bits are close
together, the checksum does not fit the data any more: the receiver gets all bytes of
the message, answers the last chunk with an error, and delivers nothing.

## Main definitions

* `Damaged` — the chunks of a message, with a burst in its data.
* `Pair.Awaits` — a reassembly and the chunks still to come, which will not fit its
  checksum.

## Main results

* `Pair.Awaits.step` — what one of these chunks makes of the reassembly.
* `burst_detected` — **a short burst in the data is always noticed.**
-/

namespace UniCan
namespace Protoplexer

/-- The chunks of a message as they arrive when a burst of at most 16 bits hit its data:
the same identifiers and lengths, the same header, but other data. -/
structure Damaged (msg : Msg) (m : UInt16) (chunks : List CanMessage) : Prop where
  frames : List.Forall₂ (fun frame chunk => chunk.id = frame.id ∧ chunk.len = frame.len)
    (frames msg m) chunks
  bytes : ∃ data, chunks.flatMap CanMessage.bytes = headerBytes msg ++ data ∧
    Burst 16 (bitsOf msg.bytes) (bitsOf data)

/-! ### The chunks of a damaged message -/

section Chunks

variable {msg : Msg} {m : UInt16} {chunks : List CanMessage}

/-- The first of the chunks, and the others. -/
theorem Damaged.split (h : Damaged msg m chunks) (hm : ChunkLengthOk m) (hdata : msg.HasData) :
    ∃ chunk rest, chunks = chunk :: rest ∧ rest.length + 1 = chunksCount msg.length m ∧
      chunk.id = canidCreate msg.addressFrom msg.addressTo msg.priorityInverted true ∧
      headerSize ≤ chunk.len.toNat ∧ chunk.len.toNat ≤ maxLen ∧
      ∀ c ∈ rest, c.id = canidCreate msg.addressFrom msg.addressTo msg.priorityInverted false ∧
        0 < c.len.toNat ∧ c.len.toNat ≤ maxLen := by
  have h6 : headerSize ≤ m.toNat := hm.1
  have h8 : m.toNat ≤ maxLen := hm.2
  obtain ⟨n, hn⟩ : ∃ n, chunksCount msg.length m = n + 1 :=
    ⟨chunksCount msg.length m - 1, by have := chunksCount_pos hm msg.length; omega⟩
  have hframes := h.frames
  rw [frames_eq hm hdata, hn, List.range_succ_eq_map, List.map_cons, List.map_map] at hframes
  obtain ⟨chunk, rest, ⟨hid, hlen⟩, hrest, rfl⟩ := List.forall₂_cons_left_iff.mp hframes
  have hlen0 : chunk.len.toNat = min m.toNat (headerSize + msg.length.toNat) := by
    rw [hlen, toNat_len_chunkAt hm, length_stream hdata, Nat.zero_mul, Nat.sub_zero]
  refine ⟨chunk, rest, rfl, ?_, hid, by omega, by omega, fun c hc => ?_⟩
  · rw [hn, ← hrest.length_eq, List.length_map, List.length_range]
  · obtain ⟨k, hk, rfl⟩ := List.getElem_of_mem hc
    have hk' : k < ((List.range n).map (chunkAt msg m ∘ Nat.succ)).length := by
      rw [hrest.length_eq]
      exact hk
    have hkn : k < n := by simpa using hk'
    obtain ⟨hid, hlen⟩ := hrest.get hk' hk
    simp only [List.get_eq_getElem, List.getElem_map, List.getElem_range,
      Function.comp_apply] at hid hlen
    have hlt : (k + 1) * m.toNat < headerSize + msg.length.toNat := by
      have hpos : 0 < m.toNat := Nat.lt_of_lt_of_le (by decide) h6
      rw [← lt_pieceCount_iff hpos, ← chunksCount_eq hm]
      omega
    refine ⟨hid, ?_⟩
    rw [hlen, toNat_len_chunkAt hm, length_stream hdata]
    have h6' : headerSize = 6 := rfl
    simp only [Nat.succ_eq_add_one]
    omega

/-- The header of a first chunk, from its bytes. -/
theorem headerWord_of_bytes {chunk : CanMessage} (h6 : headerSize ≤ chunk.len.toNat)
    (htake : chunk.bytes.take headerSize = headerBytes msg) :
    headerWord chunk 0 = msg.messageId ∧ headerWord chunk 2 = msg.length ∧
      headerWord chunk 4 = crc16 (msg.data.getD []) msg.length.toNat := by
  have hu8 : ∀ k, k < headerSize → chunk.u8 k = (headerBytes msg).getD k 0 := by
    intro k hk
    rw [← htake, CanMessage.u8, CanMessage.bytes, List.take_take, Nat.min_eq_left h6,
      List.getD_eq_getElem?_getD, List.getD_eq_getElem?_getD, List.getElem?_take_of_lt hk]
  refine ⟨?_, ?_, ?_⟩ <;> rw [headerWord, hu8 _ (by decide), hu8 _ (by decide)] <;>
    exact word_of_bytes _

end Chunks

/-! ### One pair -/

/-- A reassembly of a pair from `f` to `t`, and the chunks that will complete it, but
not with the right checksum. -/
structure Pair.Awaits (setup : Setup) (r : Reassembly) (chunks : List CanMessage) : Prop where
  length : (r.data ++ chunks.flatMap CanMessage.bytes).length = r.expectedLength.toNat
  crc : crc16 (r.data ++ chunks.flatMap CanMessage.bytes) r.expectedLength.toNat ≠ r.expectedCrc
  each : ∀ c ∈ chunks, canidGetIsFirst c.id = false ∧ setup.takes c = true ∧ 0 < c.len.toNat

/-- The answer when these chunks are still to come. -/
def awaitsResult : List CanMessage → Result
  | [] => .addingChunkWrongCrc
  | _ :: _ => .ok

section Awaits

variable {setup : Setup} {r : Reassembly} {chunks : List CanMessage}

/-- A chunk that is taken has as many bytes as it says. -/
theorem length_bytes_of_takes {c : CanMessage} (h : setup.takes c = true) :
    c.bytes.length = c.len.toNat := by
  rw [Setup.takes, Bool.and_eq_true, decide_eq_true_eq] at h
  exact CanMessage.length_bytes h.1

/-- Nothing is complete before the last chunk, and then the checksum is wrong. -/
theorem Pair.Awaits.finish (h : Pair.Awaits setup r chunks) :
    Pair.finish r = .kept r (awaitsResult chunks) := by
  have hlen := h.length
  have hcrc := h.crc
  rw [List.length_append] at hlen
  unfold Pair.finish
  cases chunks with
  | nil =>
    rw [List.flatMap_nil, List.append_nil] at hcrc
    rw [List.flatMap_nil, List.length_nil, Nat.add_zero] at hlen
    rw [if_pos hlen, if_pos hcrc, awaitsResult]
  | cons c cs =>
    obtain ⟨-, htakes, hpos⟩ := h.each c List.mem_cons_self
    rw [List.flatMap_cons, List.length_append, length_bytes_of_takes htakes] at hlen
    rw [if_neg (by omega), awaitsResult]

/-- **One of the awaited chunks**: its bytes are taken, and the rest is awaited. -/
theorem Pair.Awaits.step {call : Call} (h : Pair.Awaits setup r (call.chunk :: chunks)) :
    ∃ r', Pair.Awaits setup r' chunks ∧
      Pair.step setup true (some r) call = (some r', awaitsResult chunks, none) := by
  obtain ⟨hfirst, htakes, -⟩ := h.each call.chunk List.mem_cons_self
  have hbytes := length_bytes_of_takes htakes
  rw [Setup.takes, Bool.and_eq_true, decide_eq_true_eq] at htakes
  have hlen := h.length
  have hcrc := h.crc
  rw [List.flatMap_cons, ← List.append_assoc] at hlen hcrc
  have hnext : Pair.Awaits setup { r with data := r.data ++ call.chunk.bytes } chunks :=
    ⟨hlen, hcrc, fun c hc => h.each c (List.mem_cons_of_mem _ hc)⟩
  refine ⟨_, hnext, ?_⟩
  rw [List.length_append, List.length_append] at hlen
  rw [Pair.step_of_accepts htakes.1 htakes.2, Pair.advance, hfirst, if_neg (by simp), Pair.next,
    if_neg (by omega), hnext.finish]

end Awaits

/-! ### The receiver -/

section Receiver

variable {ctx : Ctx} {sig : UInt32}

/-- The answers to the chunks that are still to come. -/
def awaitsAnswers : List CanMessage → List (Result × Option Msg)
  | [] => []
  | _ :: chunks => (awaitsResult chunks, none) :: awaitsAnswers chunks

theorem awaitsAnswers_cons (c : CanMessage) (chunks : List CanMessage) :
    awaitsAnswers (c :: chunks) =
      List.replicate chunks.length (.ok, none) ++ [(.addingChunkWrongCrc, none)] := by
  induction chunks generalizing c with
  | nil => rfl
  | cons c' chunks ih =>
    rw [awaitsAnswers, ih, List.length_cons, List.replicate_succ, List.cons_append]
    rfl

/-- The rest of a damaged message, among the chunks of other pairs. -/
theorem Pair.Awaits.outputs {setup : Setup} {r : Reassembly} (calls : List Call)
    (hinv : Inv ctx) (hsetup : ctx.setup = setup) (hr : ctx.inProgress sig = some r)
    (h : Pair.Awaits setup r
      ((calls.filter fun call => channelSig call.chunk.id = sig).map Call.chunk)) :
    (receiver.outputsOf (fun call => channelSig call.chunk.id) sig ctx calls).map Reply.answer =
      awaitsAnswers
        ((calls.filter fun call => channelSig call.chunk.id = sig).map Call.chunk) := by
  induction calls generalizing ctx r with
  | nil => rfl
  | cons call calls ih =>
    have hspec := receiver_step_spec hinv call
    have hsetup' := hspec.setup.trans hsetup
    by_cases hsig : channelSig call.chunk.id = sig
    · -- a chunk of the message
      rw [List.filter_cons_of_pos (by simpa using hsig), List.map_cons] at h ⊢
      obtain ⟨r', hnext, hstep⟩ := h.step
      have hown := hspec.own_machine fun _ => by
        rw [hsig]
        exact Ctx.room_of_inProgress hinv (by rw [hr]; simp)
      rw [hsig, hr, hsetup] at hown
      have hmachine := hown.trans hstep
      rw [Machine.outputsOf, if_pos hsig, List.map_cons, awaitsAnswers,
        ih hspec.inv hsetup' (congrArg Prod.fst hmachine) hnext]
      exact congrArg (· :: _) (congrArg Prod.snd hmachine)
    · rw [List.filter_cons_of_neg (by simpa using hsig)] at h ⊢
      rw [Machine.outputsOf, if_neg hsig]
      exact ih hspec.inv hsetup' ((hspec.other sig (Ne.symm hsig)).trans hr) h

/-- The first chunk of a damaged message, when there is room for it. -/
theorem Damaged.first {msg : Msg} {m : UInt16} {chunk : CanMessage} {rest : List CanMessage}
    (h : Damaged msg m (chunk :: rest)) (setup : Setup) (alloc : Alloc) (hm : ChunkLengthOk m)
    (hdata : msg.HasData) (hid : msg.messageId ≠ errorId)
    (hfrom : addressValid msg.addressFrom = true) (hto : addressValid msg.addressTo = true)
    (hown : setup.monitoring = true ∨ setup.ownAddress = msg.addressTo)
    (hfits : setup.Limited → msg.length ≤ setup.maxPayload)
    (hmem : setup.rxStatic = false → alloc.rxAlloc.isSome = true) (s : Option Reassembly) :
    ∃ r, Pair.Awaits setup r rest ∧
      Pair.advance setup alloc s chunk = .kept r (awaitsResult rest) := by
  have h6 : headerSize = 6 := rfl
  obtain ⟨c0, cs, heq, -, hcid, hlen6, hlen8, hrest⟩ := h.split hm hdata
  obtain ⟨rfl, rfl⟩ := List.cons.inj heq
  obtain ⟨data, hbytes, hburst⟩ := h.bytes
  have hsize : data.length = msg.length.toNat := by
    have hlen := hburst.1
    rw [length_bitsOf, length_bitsOf, Msg.length_bytes hdata] at hlen
    omega
  have hlen := CanMessage.length_bytes hlen8
  -- the header is in the first chunk, and behind it the first bytes of the data
  have hcut : chunk.bytes.take headerSize = headerBytes msg ∧
      chunk.bytes.drop headerSize ++ rest.flatMap CanMessage.bytes = data := by
    rw [List.flatMap_cons, ← List.take_append_drop headerSize chunk.bytes,
      List.append_assoc] at hbytes
    exact List.append_inj hbytes (by rw [List.length_take, length_headerBytes]; omega)
  obtain ⟨hword0, hword2, hword4⟩ := headerWord_of_bytes hlen6 hcut.1
  obtain ⟨hgetFrom, hgetTo⟩ := canidGet_canidCreate hfrom hto msg.priorityInverted true
  rw [← hcid] at hgetFrom hgetTo
  have hfirst : canidGetIsFirst chunk.id = true := by
    rw [hcid, canidGetIsFirst_canidCreate]
  have hawaits : Pair.Awaits setup (Pair.header chunk) rest := by
    refine ⟨?_, ?_, fun c hc => ?_⟩
    · rw [Pair.header, hcut.2, hword2, hsize]
    · rw [Pair.header, hcut.2, hword2, hword4]
      refine (crc16_ne_of_burst ?_).symm
      rw [List.take_of_length_le (Nat.le_of_eq hsize)]
      exact hburst
    · obtain ⟨hid', hpos, hle⟩ := hrest c hc
      have hto' := (canidGet_canidCreate hfrom hto msg.priorityInverted false).2
      rw [← hid'] at hto'
      exact ⟨by rw [hid', canidGetIsFirst_canidCreate], Setup.takes_of_own hle hto' hown, hpos⟩
  refine ⟨_, hawaits, ?_⟩
  have hfit : chunk.len.toNat - headerSize ≤ msg.length.toNat := by
    have hsum := congrArg List.length hcut.2
    rw [List.length_append, List.length_drop, hlen, hsize] at hsum
    omega
  rw [Pair.advance, hfirst, if_pos rfl, Pair.first, hgetFrom, hgetTo, hfrom, hto, hword0, hword2,
    Setup.refuses_eq_false hfits hmem, if_neg (by omega), if_neg (by simp), if_neg (by omega),
    if_neg (by simp), if_neg hid, hawaits.finish]

/-- **A short burst in the data is always noticed.**  The checksums of two buffers that
differ in a burst of at most 16 bits are different.  So when the chunks of a message
arrive, in order and all of them, with such a burst in its data, at a context that takes
the messages of the pair and has room for this one, then the last chunk is answered with
an error, the others are fine, and no message is delivered, whatever arrives for other
pairs meanwhile. -/
theorem burst_detected :
    (∀ (n : ℕ) (buf buf' : List UInt8), buf.length = n → buf'.length = n →
      Burst 16 (bitsOf buf) (bitsOf buf') → crc16 buf n ≠ crc16 buf' n) ∧
    ∀ ctx : Ctx, ctx.Reachable → ∀ (msg : Msg) (m : UInt16), msg.HasData → ChunkLengthOk m →
      msg.messageId ≠ errorId → addressValid msg.addressFrom = true →
      addressValid msg.addressTo = true →
      ctx.monitoring = true ∨ ctx.ownAddress = msg.addressTo →
      ctx.Room (pairSig msg.addressFrom msg.addressTo) →
      (ctx.setup.Limited → msg.length ≤ ctx.maxPayload) →
      ∀ (call : Call) (calls : List Call),
        (ctx.rxStatic = false → call.alloc.rxAlloc.isSome = true) →
        pairOf call.chunk.id = (msg.addressFrom, msg.addressTo) →
        Damaged msg m (((call :: calls).filter fun c =>
          pairOf c.chunk.id = (msg.addressFrom, msg.addressTo)).map Call.chunk) →
        (receiver.outputsOf (fun c => pairOf c.chunk.id) (msg.addressFrom, msg.addressTo) ctx
            (call :: calls)).map Reply.answer =
          List.replicate (chunksCount msg.length m - 1) (.ok, none) ++
            [(.addingChunkWrongCrc, none)] := by
  refine ⟨fun n buf buf' hn hn' hburst => ?_, ?_⟩
  · refine crc16_ne_of_burst ?_
    rw [List.take_of_length_le (Nat.le_of_eq hn), List.take_of_length_le (Nat.le_of_eq hn')]
    exact hburst
  intro ctx hreach msg m hdata hm hid hfrom hto hown hroom hfits call calls hmem hpair hdamaged
  have hinv := hreach.inv
  have hkey : ∀ c : Call, pairOf c.chunk.id = (msg.addressFrom, msg.addressTo) ↔
      channelSig c.chunk.id = channelSig call.chunk.id := fun c => by
    rw [channelSig_eq_iff, hpair]
  simp only [hkey] at hdamaged
  rw [receiver.outputsOf_congr hkey]
  rw [List.filter_cons_of_pos (by simp), List.map_cons] at hdamaged
  set rest : List CanMessage := ((calls.filter fun c =>
    channelSig c.chunk.id = channelSig call.chunk.id).map Call.chunk) with hrest
  -- the first chunk finds a slot
  have hsig : channelSig call.chunk.id = pairSig msg.addressFrom msg.addressTo := by
    obtain ⟨hgetFrom, hgetTo⟩ := Prod.mk.inj hpair
    rw [channelSig, pairSig, hgetFrom, hgetTo]
  obtain ⟨r, hawaits, hadvance⟩ := hdamaged.first ctx.setup call.alloc hm hdata hid hfrom hto
    hown hfits hmem (ctx.inProgress (channelSig call.chunk.id))
  obtain ⟨c0, cs, heq, hcount, -, -, hlen8, -⟩ := hdamaged.split hm hdata
  obtain ⟨rfl, rfl⟩ := List.cons.inj heq
  have htakes : ctx.setup.takes call.chunk = true :=
    Setup.takes_of_own hlen8 (Prod.mk.inj hpair).2 hown
  rw [Setup.takes, Bool.and_eq_true, decide_eq_true_eq] at htakes
  have hspec := receiver_step_spec hinv call
  have hmachine := hspec.own_machine fun _ => by
    rw [hsig]
    exact hroom
  have hstep : (Pair.machine ctx.setup).step (ctx.inProgress (channelSig call.chunk.id)) call =
      (some r, awaitsResult rest, none) := by
    refine (Pair.step_of_accepts htakes.1 htakes.2).trans ?_
    rw [hadvance]
  rw [hstep] at hmachine
  have houtputs := hawaits.outputs calls hspec.inv hspec.setup (congrArg Prod.fst hmachine)
  rw [Machine.outputsOf, if_pos rfl, List.map_cons, houtputs, ← hcount, Nat.add_sub_cancel,
    ← awaitsAnswers_cons call.chunk rest, awaitsAnswers]
  exact congrArg (· :: _) (congrArg Prod.snd hmachine)

/-- A chunk of the message in chunks of seven bytes, with other bytes in it. -/
def smallDamaged (i : ℕ) (bytes : List UInt8) : Call where
  api := .addChunk true
  chunk := { chunkAt (smallMsg 5) 7 i with data := CanData.ofBytes bytes }
  alloc := .ample

/-- Two bits flip, the last one of the first chunk and the first one of the second. -/
theorem burst_detected_smallMsg :
    (receiver.outputsOf (fun c => pairOf c.chunk.id) (1, 2) Ctx.monitor
        [smallDamaged 0 (headerBytes (smallMsg 5) ++ [0xAA]), smallDamaged 1 [0x4D]]).map
        Reply.answer =
      [(.ok, none), (.addingChunkWrongCrc, none)] :=
  burst_detected.2 Ctx.monitor Ctx.monitor_initial.reachable (smallMsg 5) 7 (by decide) (by decide)
    (by decide) (by decide) (by decide) (Or.inl rfl) (by decide) (by decide)
    (smallDamaged 0 (headerBytes (smallMsg 5) ++ [0xAA])) [smallDamaged 1 [0x4D]]
    (fun _ => rfl) (by decide)
    { frames := by
        refine List.Forall₂.cons ⟨?_, ?_⟩ (List.Forall₂.cons ⟨?_, ?_⟩ List.Forall₂.nil) <;> rfl
      bytes := by
        refine ⟨[0xAA, 0x4D], by decide, by decide, by decide, 0, fun i hi => ⟨Nat.zero_le i, ?_⟩⟩
        by_contra hge
        refine hi ?_
        rw [List.getElem?_eq_none, List.getElem?_eq_none]
        · rw [length_bitsOf, List.length_cons, List.length_singleton]
          omega
        · rw [length_bitsOf, Msg.length_bytes (by decide), smallMsg]
          simp only [UInt16.reduceToNat]
          omega }

end Receiver

end Protoplexer
end UniCan
