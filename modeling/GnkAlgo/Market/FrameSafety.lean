import GnkAlgo.Market.Frames

/-!
# Decoding arbitrary bytes

`decode_dhan_frames` on any message.  The lengths that the headers declare lead
from one offset to the next; `Faulty` says what can be wrong at an offset.

* `decodeFrame_spec` — one frame;
* `decodeFrom_spec` — the loop from an offset;
* `decodeDhanFrames_safe` — packets that cover the message, or a protocol error,
  and when.
-/

namespace GnkAlgo

open Packing

/-! ## What a header declares -/

/-- The number in the bytes of a message from `start` up to `stop`. -/
def numberIn (data : List UInt8) (start stop : ℕ) : ℕ := wordOf (slice data start stop)

def declaredCode (data : List UInt8) (offset : ℕ) : ℕ := numberIn data offset (offset + 1)

def declaredLength (data : List UInt8) (offset : ℕ) : ℕ := numberIn data (offset + 1) (offset + 3)

/-- The packet has the fields of the header at an offset. -/
structure Packet.HeaderAt (p : Packet) (data : List UInt8) (offset : ℕ) : Prop where
  responseCode : p .responseCode = some (declaredCode data offset)
  messageLength : p .messageLength = some (declaredLength data offset)
  exchangeSegment : p .exchangeSegment = some (numberIn data (offset + 3) (offset + 4))
  securityId : p .securityId = some (toString (numberIn data (offset + 4) (offset + 8)))

/-- The bytes a frame of a known code has at least. -/
def knownSize : ℕ → Option ℕ
  | 2 => some 16
  | 4 => some 50
  | 5 => some 12
  | 6 => some 16
  | 8 => some 162
  | 50 => some 10
  | _ => none

/-- What is wrong where a frame should begin. -/
def Faulty (data : List UInt8) (offset : ℕ) : Prop :=
  offset < data.length ∧ (data.length - offset < 8 ∨ declaredLength data offset < 8 ∨
    data.length < offset + declaredLength data offset ∨
    ∃ size ∈ knownSize (declaredCode data offset), declaredLength data offset < size)

/-- The next frame begins where the declared length ends. -/
def NextFrame (data : List UInt8) (offset next : ℕ) : Prop :=
  offset < data.length ∧ ¬ Faulty data offset ∧ next = offset + declaredLength data offset

/-- The offsets met on the way from the start of a message. -/
def Meets (data : List UInt8) (offset : ℕ) : Prop :=
  Relation.ReflTransGen (NextFrame data) 0 offset

/-! ## Reading a header -/

theorem unpackFrom_isOk (l : Layout) {data : List UInt8} {offset : ℕ}
    (h : offset + l.size ≤ data.length) : ∃ values, unpackFrom l data offset = .ok values := by
  have hread : (l.unpackFrom data offset).isSome := by
    rw [Layout.unpackFrom, Layout.read_isSome_iff, List.length_drop]
    omega
  obtain ⟨values, hvalues⟩ := Option.isSome_iff_exists.1 hread
  exact ⟨values, unpackFrom_of_some hvalues⟩

theorem slice_eq (data : List UInt8) (start count : ℕ) :
    slice data start (start + count) = (data.drop start).take count := by
  rw [slice, List.drop_take, Nat.add_sub_cancel_left]

/-- The fields of a header are the numbers in its bytes. -/
theorem unpackFrom_header {data : List UInt8} {offset : ℕ} (h : offset + 8 ≤ data.length) :
    ∃ (code : Word 1) (length : Word 2) (exchange : Word 1) (security : Word 4),
      unpackFrom FeedLayout.header data offset = .ok (code, length, exchange, security, ()) ∧
      code.val = declaredCode data offset ∧ length.val = declaredLength data offset ∧
      exchange.val = numberIn data (offset + 3) (offset + 4) ∧
      security.val = numberIn data (offset + 4) (offset + 8) := by
  obtain ⟨⟨code, length, exchange, security, ⟨⟩⟩, hok⟩ := unpackFrom_isOk FeedLayout.header h
  refine ⟨code, length, exchange, security, hok, ?_⟩
  have hread : FeedLayout.header.read (data.drop offset) =
      some (code, length, exchange, security, ()) := by
    rw [unpackFrom] at hok
    split at hok
    · rename_i values hvalues
      cases hok
      exact hvalues
    · cases hok
  obtain ⟨hcode, hread⟩ := Layout.read_word hread
  obtain ⟨hlength, hread⟩ := Layout.read_word hread
  obtain ⟨hexchange, hread⟩ := Layout.read_word hread
  obtain ⟨hsecurity, -⟩ := Layout.read_word hread
  simp only [List.drop_drop] at hlength hexchange hsecurity
  refine ⟨?_, ?_, ?_, ?_⟩
  · rw [hcode, declaredCode, numberIn, slice_eq]
  · rw [hlength, declaredLength, numberIn, show offset + 3 = offset + 1 + 2 from rfl, slice_eq]
  · rw [hexchange, numberIn, show offset + 4 = offset + 3 + 1 from rfl, slice_eq]
  · rw [hsecurity, numberIn, show offset + 8 = offset + 4 + 4 from rfl, slice_eq]

/-! ## One frame -/

/-- The fields of the header are as in `base`. -/
def Packet.SameHeader (base p : Packet) : Prop :=
  ∀ key ∈ [PacketKey.responseCode, .messageLength, .exchangeSegment, .securityId], p key = base key

theorem Packet.update_of_not_mem {p : Packet} {entries : List (Sigma PacketKey.Value)}
    {key : PacketKey} (h : ∀ entry ∈ entries, entry.1 ≠ key) : p.update entries key = p key := by
  induction entries generalizing p with
  | nil => rfl
  | cons entry entries ih =>
    have hrest := fun e he => h e (List.mem_cons_of_mem _ he)
    have hfirst := h entry (List.mem_cons_self ..)
    exact (ih hrest).trans (Function.update_of_ne hfirst.symm _ _)

theorem Packet.sameHeader_update (base : Packet) {entries : List (Sigma PacketKey.Value)}
    (h : ∀ entry ∈ entries, entry.1 ∉
      [PacketKey.responseCode, .messageLength, .exchangeSegment, .securityId]) :
    base.SameHeader (base.update entries) := fun _ hkey =>
  update_of_not_mem fun entry hentry heq => h entry hentry (heq ▸ hkey)

/-- A branch for a known code, which begins by reading its layout. -/
theorem packetValues_bind (l : Layout) (name : String) (frame : List UInt8) {base : Packet}
    {f : l.Values → Except FeedError Packet}
    (hf : ∀ values, ∃ packet, f values = .ok packet ∧ base.SameHeader packet) :
    (frame.length < l.size ∧
      ∃ message, (packetValues l name frame >>= f) = .error (.protocol message)) ∨
    (l.size ≤ frame.length ∧
      ∃ packet, (packetValues l name frame >>= f) = .ok packet ∧ base.SameHeader packet) := by
  rw [packetValues]
  by_cases hshort : frame.length < l.size
  · rw [if_pos hshort]
    exact Or.inl ⟨hshort, _, rfl⟩
  · rw [if_neg hshort]
    have henough : 0 + l.size ≤ frame.length := by omega
    obtain ⟨values, hvalues⟩ := unpackFrom_isOk l henough
    obtain ⟨packet, hpacket, hsame⟩ := hf values
    exact Or.inr ⟨not_lt.1 hshort, packet, (bind_of_ok hvalues f).trans hpacket, hsame⟩

theorem mapM_isOk {ε α β : Type} {f : α → Except ε β} {l : List α}
    (h : ∀ x ∈ l, ∃ y, f x = .ok y) : ∃ ys, l.mapM f = .ok ys ∧ ys.length = l.length := by
  induction l with
  | nil => exact ⟨[], rfl, rfl⟩
  | cons x l ih =>
    obtain ⟨y, hy⟩ := h x (List.mem_cons_self ..)
    obtain ⟨ys, hys, hlength⟩ := ih fun x hx => h x (List.mem_cons_of_mem _ hx)
    refine ⟨y :: ys, ?_, congrArg (· + 1) hlength⟩
    rw [List.mapM_cons, hy, hys]
    rfl

/-- A hundred bytes hold five levels. -/
theorem depthOf_isOk (raw : List.Vector UInt8 100) :
    ∃ best levels, depthOf raw.toList = .ok (best :: levels) := by
  have hoffsets : stepRange raw.toList.length FeedLayout.depthLevel.size = [0, 20, 40, 60, 80] := by
    rw [raw.toList_length]
    rfl
  have hsize : FeedLayout.depthLevel.size = 20 := rfl
  have hlevels : ∃ ys, depthOf raw.toList = .ok ys ∧ ys.length = 5 := by
    rw [depthOf, hoffsets]
    refine mapM_isOk fun offset hoffset => ?_
    have hle : offset + FeedLayout.depthLevel.size ≤ raw.toList.length := by
      rw [raw.toList_length, hsize]
      simp only [List.mem_cons, List.not_mem_nil, or_false] at hoffset
      omega
    obtain ⟨values, hvalues⟩ := unpackFrom_isOk _ hle
    exact ⟨_, bind_of_ok hvalues _⟩
  obtain ⟨ys, hys, hlength⟩ := hlevels
  obtain - | ⟨best, levels⟩ := ys
  · cases hlength
  · exact ⟨best, levels, hys⟩

/-- How a frame with a code decodes: with a protocol error where it is shorter
than the layout of the code, and else with the fields of its header. -/
def BodyDecodes (frame : List UInt8) (code : ℕ) (base : Packet)
    (result : Except FeedError Packet) : Prop :=
  ((∃ size ∈ knownSize code, frame.length < size) ∧
    ∃ message, result = .error (.protocol message)) ∨
  ((∀ size ∈ knownSize code, size ≤ frame.length) ∧
    ∃ packet, result = .ok packet ∧ base.SameHeader packet)

theorem bodyDecodes_known {frame : List UInt8} {code : ℕ} {base : Packet} {l : Layout}
    {name : String} {f : l.Values → Except FeedError Packet} (hsize : knownSize code = some l.size)
    (hf : ∀ values, ∃ packet, f values = .ok packet ∧ base.SameHeader packet) :
    BodyDecodes frame code base (packetValues l name frame >>= f) := by
  rw [BodyDecodes, hsize]
  simpa using packetValues_bind l name frame hf

/-- **The branches.** -/
theorem decodeBody_spec (frame : List UInt8) (code : ℕ) (base : Packet) :
    BodyDecodes frame code base (decodeBody frame code base) := by
  unfold decodeBody
  by_cases h2 : code = 2
  · subst h2
    rw [if_pos rfl]
    exact bodyDecodes_known rfl fun values => ⟨_, rfl, base.sameHeader_update (by simp)⟩
  by_cases h4 : code = 4
  · subst h4
    rw [if_neg h2, if_pos rfl]
    exact bodyDecodes_known rfl fun values => ⟨_, rfl, base.sameHeader_update (by simp)⟩
  by_cases h5 : code = 5
  · subst h5
    rw [if_neg h2, if_neg h4, if_pos rfl]
    exact bodyDecodes_known rfl fun values => ⟨_, rfl, base.sameHeader_update (by simp)⟩
  by_cases h6 : code = 6
  · subst h6
    rw [if_neg h2, if_neg h4, if_neg h5, if_pos rfl]
    exact bodyDecodes_known rfl fun values => ⟨_, rfl, base.sameHeader_update (by simp)⟩
  by_cases h8 : code = 8
  · subst h8
    rw [if_neg h2, if_neg h4, if_neg h5, if_neg h6, if_pos rfl]
    refine bodyDecodes_known rfl fun values => ?_
    obtain ⟨best, levels, hdepth⟩ := depthOf_isOk (values.get 18)
    exact ⟨_, bind_of_ok hdepth _, base.sameHeader_update (by simp)⟩
  by_cases h50 : code = 50
  · subst h50
    rw [if_neg h2, if_neg h4, if_neg h5, if_neg h6, if_neg h8, if_pos rfl]
    exact bodyDecodes_known rfl fun values => ⟨_, rfl, base.sameHeader_update (by simp)⟩
  · rw [if_neg h2, if_neg h4, if_neg h5, if_neg h6, if_neg h8, if_neg h50]
    have hunknown : knownSize code = none := by
      unfold knownSize
      split <;> first | rfl | exact absurd rfl ‹_›
    refine Or.inr ⟨fun size hsize => ?_, base, rfl, fun _ _ => rfl⟩
    rw [hunknown] at hsize
    cases hsize

/-- **One frame** of a message, where its header is sound. -/
theorem decodeFrame_spec {data : List UInt8} {offset : ℕ} (h8 : 8 ≤ declaredLength data offset)
    (hend : offset + declaredLength data offset ≤ data.length) :
    ((∃ size ∈ knownSize (declaredCode data offset), declaredLength data offset < size) ∧
      ∃ message, decodeFrame (slice data offset (offset + declaredLength data offset)) =
        .error (.protocol message)) ∨
    ((∀ size ∈ knownSize (declaredCode data offset), size ≤ declaredLength data offset) ∧
      ∃ packet, decodeFrame (slice data offset (offset + declaredLength data offset)) =
        .ok packet ∧ packet.HeaderAt data offset) := by
  generalize hframe : slice data offset (offset + declaredLength data offset) = frame
  have hlength : frame.length = declaredLength data offset := by
    rw [← hframe, slice_eq, List.length_take, List.length_drop]
    omega
  -- the header of the frame is the one in the message
  have hsame : ∀ {start stop : ℕ}, start ≤ stop → stop ≤ 8 →
      numberIn frame start stop = numberIn data (offset + start) (offset + stop) := by
    intro start stop hle hstop
    obtain ⟨count, rfl⟩ := Nat.exists_eq_add_of_le hle
    rw [numberIn, numberIn, slice_eq, ← Nat.add_assoc, slice_eq, ← hframe, slice_eq, List.drop_take,
      List.take_take, List.drop_drop]
    congr 2
    omega
  have hheader : 0 + 8 ≤ frame.length := by omega
  obtain ⟨code, length, exchange, security, hok, hcode, hlen, hexchange, hsecurity⟩ :=
    unpackFrom_header hheader
  rw [declaredCode, hsame (by omega) (by omega)] at hcode
  rw [declaredLength, hsame (by omega) (by omega)] at hlen
  rw [hsame (by omega) (by omega)] at hexchange hsecurity
  rw [decodeFrame, bind_of_ok hok]
  dsimp only
  rw [← hlength, declaredCode, show numberIn data offset (offset + 1) = code.val from hcode.symm]
  rcases decodeBody_spec frame code.val _ with herror | ⟨hsize, packet, hpacket, hfields⟩
  · exact Or.inl herror
  · refine Or.inr ⟨hsize, packet, hpacket, ?_, ?_, ?_, ?_⟩
    · exact (hfields .responseCode (by decide)).trans (congrArg some hcode)
    · exact (hfields .messageLength (by decide)).trans (congrArg some hlen)
    · exact (hfields .exchangeSegment (by decide)).trans (congrArg some hexchange)
    · exact (hfields .securityId (by decide)).trans
        (congrArg (fun n => some (toString n)) hsecurity)

/-! ## The loop -/

/-- The packets lie one after another, from an offset to the end of the message. -/
def Spans (data : List UInt8) : ℕ → List Packet → Prop
  | offset, [] => offset = data.length
  | offset, packet :: packets => 8 ≤ declaredLength data offset ∧ packet.HeaderAt data offset ∧
      Spans data (offset + declaredLength data offset) packets

/-- **The loop** from an offset: it decodes all that is left, or meets a fault. -/
theorem decodeFrom_spec (data : List UInt8) {offset : ℕ} (hle : offset ≤ data.length) :
    ((∃ packets, decodeFrom data offset = .ok packets ∧ Spans data offset packets) ∧
      ∀ later, Relation.ReflTransGen (NextFrame data) offset later → ¬ Faulty data later) ∨
    ((∃ message, decodeFrom data offset = .error (.protocol message)) ∧
      ∃ later, Relation.ReflTransGen (NextFrame data) offset later ∧ Faulty data later) := by
  induction hleft : data.length - offset using Nat.strong_induction_on generalizing offset with
  | _ left ih =>
  rw [decodeFrom]
  by_cases hmore : offset < data.length
  swap
  · -- the message ends here
    have hend : offset = data.length := by omega
    rw [if_neg hmore]
    refine Or.inl ⟨⟨[], rfl, hend⟩, fun later hlater hfault => ?_⟩
    rcases hlater.cases_head with rfl | ⟨next, hnext, -⟩
    · exact hmore hfault.1
    · exact hmore hnext.1
  rw [if_pos hmore]
  have hsize : FeedLayout.header.size = 8 := rfl
  by_cases hheader : data.length - offset < 8
  · rw [hsize, if_pos hheader]
    exact Or.inr ⟨⟨_, rfl⟩, offset, .refl, hmore, Or.inl hheader⟩
  rw [hsize, if_neg hheader]
  have hread : offset + 8 ≤ data.length := by omega
  obtain ⟨code, length, exchange, security, hok, -, hlength, -, -⟩ := unpackFrom_header hread
  rw [bind_of_ok hok]
  dsimp only
  rw [hlength]
  by_cases hshort : declaredLength data offset < 8
  · rw [dif_pos hshort]
    exact Or.inr ⟨⟨_, rfl⟩, offset, .refl, hmore, Or.inr (Or.inl hshort)⟩
  rw [dif_neg hshort]
  by_cases hpast : offset + declaredLength data offset > data.length
  · rw [if_pos hpast]
    exact Or.inr ⟨⟨_, rfl⟩, offset, .refl, hmore, Or.inr (Or.inr (Or.inl hpast))⟩
  rw [if_neg hpast]
  have h8 : 8 ≤ declaredLength data offset := not_lt.1 hshort
  have hend : offset + declaredLength data offset ≤ data.length := not_lt.1 hpast
  rcases decodeFrame_spec h8 hend with
    ⟨hsmall, message, herror⟩ | ⟨hknown, packet, hpacket, hfields⟩
  · rw [herror]
    exact Or.inr ⟨⟨message, rfl⟩, offset, .refl, hmore, Or.inr (Or.inr (Or.inr hsmall))⟩
  rw [bind_of_ok hpacket]
  have hsound : ¬ Faulty data offset := by
    rintro ⟨-, hfault | hfault | hfault | ⟨size, hsize', hfault⟩⟩
    · exact hheader hfault
    · exact hshort hfault
    · exact hpast hfault
    · exact absurd hfault (not_lt.2 (hknown size hsize'))
  have hnext : NextFrame data offset (offset + declaredLength data offset) := ⟨hmore, hsound, rfl⟩
  rcases ih _ (by omega) hend rfl with ⟨⟨packets, hrest, hspans⟩, hsafe⟩ |
      ⟨⟨message, herror⟩, later, hlater, hfault⟩
  · rw [hrest]
    refine Or.inl ⟨⟨packet :: packets, rfl, h8, hfields, hspans⟩, fun later hlater => ?_⟩
    rcases hlater.cases_head with rfl | ⟨next, ⟨-, -, rfl⟩, hlater⟩
    · exact hsound
    · exact hsafe later hlater
  · rw [herror]
    exact Or.inr ⟨⟨message, rfl⟩, later, .head hnext hlater, hfault⟩

/-- What spans a message, in terms of the declared lengths. -/
theorem Spans.lengths {data : List UInt8} {packets : List Packet} {offset : ℕ}
    (h : Spans data offset packets) : ∃ lengths : List ℕ,
      packets.map (· .messageLength) = lengths.map some ∧ (∀ n ∈ lengths, 8 ≤ n) ∧
      offset + lengths.sum = data.length ∧
      ∀ i (hi : i < packets.length), packets[i].HeaderAt data (offset + (lengths.take i).sum) := by
  induction packets generalizing offset with
  | nil => exact ⟨[], rfl, by simp, h, by simp⟩
  | cons packet packets ih =>
    obtain ⟨h8, hfields, hrest⟩ := h
    obtain ⟨lengths, hlengths, hmin, hsum, hheaders⟩ := ih hrest
    refine ⟨declaredLength data offset :: lengths, ?_, ?_, ?_, fun i hi => ?_⟩
    · rw [List.map_cons, hfields.messageLength, hlengths, List.map_cons]
    · exact List.forall_mem_cons.2 ⟨h8, hmin⟩
    · rw [List.sum_cons, ← Nat.add_assoc, hsum]
    · cases i with
      | zero => exact hfields
      | succ i =>
        rw [List.take_succ_cons, List.sum_cons, ← Nat.add_assoc]
        exact hheaders i (Nat.lt_of_succ_lt_succ hi)

/-- **Decoding is safe on arbitrary bytes.**  It returns packets that cover the
message, each with the header at its offset, or raises a protocol error; it raises
one exactly where the declared lengths lead to a fault. -/
theorem decodeDhanFrames_safe (data : List UInt8) :
    ((∃ packets, decodeDhanFrames data = .ok packets) ∨
      ∃ message, decodeDhanFrames data = .error (.protocol message)) ∧
    (∀ packets, decodeDhanFrames data = .ok packets → ∃ lengths : List ℕ,
      packets.map (· .messageLength) = lengths.map some ∧ (∀ n ∈ lengths, 8 ≤ n) ∧
      lengths.sum = data.length ∧
      ∀ i (hi : i < packets.length), packets[i].HeaderAt data (lengths.take i).sum) ∧
    ((∃ message, decodeDhanFrames data = .error (.protocol message)) ↔
      ∃ offset, Meets data offset ∧ Faulty data offset) := by
  unfold decodeDhanFrames Meets
  rcases decodeFrom_spec data (Nat.zero_le _) with ⟨⟨packets, hok, hspans⟩, hsafe⟩ |
      ⟨⟨message, herror⟩, hfault⟩
  · rw [hok]
    refine ⟨Or.inl ⟨packets, rfl⟩, fun packets' heq => ?_, ?_⟩
    · obtain rfl := Except.ok.inj heq
      simpa only [Nat.zero_add] using hspans.lengths
    · exact iff_of_false (fun ⟨_, h⟩ => nomatch h) fun ⟨offset, hmeets, h⟩ => hsafe offset hmeets h
  · rw [herror]
    exact ⟨Or.inr ⟨message, rfl⟩, (fun _ h => nomatch h), iff_of_true ⟨message, rfl⟩ hfault⟩

end GnkAlgo
