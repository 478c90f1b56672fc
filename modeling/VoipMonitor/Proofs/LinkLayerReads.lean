import VoipMonitor.Model.LinkLayer

/-!
# What `parseEtherHeader` reads of a frame

The loops over the tags and over the labels end where the packet says so, and the call does not know
the captured length. A frame is read inside the capture, or given up by `pcapProcess`, exactly when
its tags and labels end and the fields up to them are captured or lead to a header that fails a
check.
-/

namespace VoipMonitor.LinkLayer
open VoipMonitor.Library

/-! ## Loops -/

def lastTag (packet : Bytes) (base o : Nat) : Option Tags :=
  if be16 packet (base + o + 2) = 0x8100 then none
  else some ⟨nextOffset o, be16 packet (base + o + 2), be16 packet (base + o) % 0x1000⟩

def bottomLabel (packet : Bytes) (base o : Nat) : Option Nat :=
  if byteAt packet (base + o + 2) % 2 = 0 then none else some (nextOffset o)

lemma readTag_gives (packet : Bytes) (base o : Nat) :
    Gives (readTag packet base o) (lastTag packet base o) (base + o + 4) := by
  intro s
  have hstop : max (max s (base + o + 2)) (base + o + 2 + 2) = max s (base + o + 4) := by omega
  rw [← hstop, lastTag]
  change (if be16 packet (base + o + 2) = 0x8100 then _ else _ : Reading (Option Tags)) _ = _
  split <;> rfl

lemma readLabel_gives (packet : Bytes) (base o : Nat) :
    Gives (readLabel packet base o) (bottomLabel packet base o) (base + o + 3) := by
  intro s
  rw [bottomLabel]
  change (if byteAt packet (base + o + 2) % 2 = 0 then _ else _ : Reading (Option Nat)) _ = _
  split <;> rfl

/-! ## The condition

Each part follows the format of the frame and hands on what it finds, with the position behind the
last byte looked at. -/

def TagsEnd (packet : Bytes) (base o : Nat) (q : Tags → Nat → Prop) : Prop :=
  ∃ k t, EndsAt (lastTag packet base) nextOffset o k t ∧
    q t (reach (fun o => base + o + 4) nextOffset k o)

def LabelsEnd (packet : Bytes) (base o : Nat) (q : Nat → Nat → Prop) : Prop :=
  ∃ k o', EndsAt (bottomLabel packet base) nextOffset o k o' ∧
    q o' (reach (fun o => base + o + 3) nextOffset k o)

def BranchReads (packet : Bytes) (base etherType : Nat) (q : EtherBranch → Nat → Prop) : Prop :=
  if etherType = 0x8100 then q (.existsVlan 0) 0
  else if etherType = 0x88A8 then
    if be16 packet (base + 2) = 0x8100 then q (.existsVlan 4) (base + 4)
    else q (.known 4 (be16 packet (base + 2)) none) (base + 4)
  else if etherType = 0x8926 then
    if be16 packet (base + 4) = 0x8100 then q (.existsVlan 6) (base + 6)
    else q (.known 6 (be16 packet (base + 4)) none) (base + 6)
  else if etherType = 0x8864 then
    if be16 packet (base + 6) = 0x0021 then q (.known 8 ethertypeIp (some base)) (base + 8)
    else q (.known 0 0 none) (base + 8)
  else if etherType = 0x8847 then
    LabelsEnd packet base 0 (fun o => q (.known o ethertypeIp none))
  else q (.known 0 etherType none) 0

lemma innerType_decided (packet : Bytes) (typePos o : Nat) :
    Decided (fun _ => innerType packet typePos o) :=
  (Decided.read16 packet typePos).bind (fun _ => (Decided.pure _).ite (Decided.pure _))

lemma pppOE_decided (packet : Bytes) (base : Nat) : Decided (fun _ => pppOE packet base) :=
  (Decided.read16 packet (base + 6)).bind (fun _ => (Decided.pure _).ite (Decided.pure _))

lemma mpls_decided (packet : Bytes) (base : Nat) : Decided (mpls packet base) :=
  (doWhile_decided (readLabel_gives packet base) 0).bind (fun _ => Decided.pure _)

lemma etherBranch_decided (packet : Bytes) (base etherType : Nat) :
    Decided (etherBranch packet base etherType) :=
  (Decided.pure _).ite <| (innerType_decided packet (base + 2) 4).ite <|
    (innerType_decided packet (base + 4) 6).ite <| (pppOE_decided packet base).ite <|
    (mpls_decided packet base).ite <| Decided.pure _

lemma wp_innerType (packet : Bytes) (typePos o : Nat) (q : EtherBranch → Nat → Prop) :
    Wp (fun _ => innerType packet typePos o) q ↔
      if be16 packet typePos = 0x8100 then q (.existsVlan o) (typePos + 2)
      else q (.known o (be16 packet typePos) none) (typePos + 2) := by
  unfold innerType
  rw [wp_bind (Decided.read16 packet typePos) (fun _ => (Decided.pure _).ite (Decided.pure _)),
    wp_read16, wp_ite, wp_pure, wp_pure, Nat.max_zero]

lemma wp_pppOE (packet : Bytes) (base : Nat) (q : EtherBranch → Nat → Prop) :
    Wp (fun _ => pppOE packet base) q ↔
      if be16 packet (base + 6) = 0x0021 then q (.known 8 ethertypeIp (some base)) (base + 8)
      else q (.known 0 0 none) (base + 8) := by
  unfold pppOE
  rw [wp_bind (Decided.read16 packet (base + 6)) (fun _ => (Decided.pure _).ite (Decided.pure _)),
    wp_read16, wp_ite, wp_pure, wp_pure, Nat.max_zero]

lemma wp_mpls (packet : Bytes) (base : Nat) (q : EtherBranch → Nat → Prop) :
    Wp (mpls packet base) q ↔
      LabelsEnd packet base 0 (fun o => q (.known o ethertypeIp none)) := by
  unfold mpls
  rw [wp_bind (doWhile_decided (readLabel_gives packet base) 0) (fun _ => Decided.pure _),
    wp_doWhile (readLabel_gives packet base)]
  simp only [wp_pure, Nat.max_zero]
  rfl

lemma wp_etherBranch (packet : Bytes) (base etherType : Nat) (q : EtherBranch → Nat → Prop) :
    Wp (etherBranch packet base etherType) q ↔ BranchReads packet base etherType q := by
  unfold etherBranch BranchReads
  rw [wp_ite, wp_ite, wp_ite, wp_ite, wp_ite, wp_pure, wp_innerType, wp_innerType, wp_pppOE,
    wp_mpls, wp_pure]

/-! ## Behind the branches -/

def headerBehindTags (packet : Bytes) (base : Nat) (t : Tags) : EtherHeader :=
  if t.protocol = 0x8864 ∧ be16 packet (base + t.headerIpOffset + 6) = 0x0021 then
    { headerIpOffset := (t.headerIpOffset + 8) % 2 ^ 16
      protocol := ethertypeIp
      vlan := t.vlan
      headerPppOE := some (base + t.headerIpOffset) }
  else
    { headerIpOffset := t.headerIpOffset, protocol := t.protocol, vlan := t.vlan }

def TagsRead (packet : Bytes) (base : Nat) : EtherBranch → (EtherHeader → Nat → Prop) → Prop
  | .existsVlan o, q => TagsEnd packet base o (fun t stop =>
      q (headerBehindTags packet base t)
        (max stop (if t.protocol = 0x8864 then base + t.headerIpOffset + 8 else 0)))
  | .known o protocol headerPppOE, q =>
      q { headerIpOffset := o, protocol := protocol, headerPppOE := headerPppOE } 0

lemma pppOEBehindTags_gives (packet : Bytes) (base : Nat) (t : Tags) :
    Gives (pppOEBehindTags packet base t) (headerBehindTags packet base t)
      (if t.protocol = 0x8864 then base + t.headerIpOffset + 8 else 0) := by
  intro s
  rw [pppOEBehindTags, headerBehindTags]
  by_cases htype : t.protocol = 0x8864
  · rw [if_pos htype, if_pos htype]
    simp only [htype, true_and]
    change (if be16 packet (base + t.headerIpOffset + 6) = 0x0021 then _ else _ :
      Reading EtherHeader) _ = _
    split <;> rfl
  · rw [if_neg htype, if_neg htype, if_neg (fun h => htype h.1), Nat.max_zero]
    rfl

lemma pppOEBehindTags_decided (packet : Bytes) (base : Nat) (t : Tags) :
    Decided (fun _ => pppOEBehindTags packet base t) :=
  Or.inl ⟨_, _, (pppOEBehindTags_gives packet base t).ends⟩

lemma etherTags_decided (packet : Bytes) (base : Nat) (b : EtherBranch) :
    Decided (etherTags packet base b) := by
  cases b with
  | existsVlan o =>
    exact (doWhile_decided (readTag_gives packet base) o).bind (pppOEBehindTags_decided packet base)
  | known o protocol headerPppOE => exact Decided.pure _

lemma wp_etherTags (packet : Bytes) (base : Nat) (b : EtherBranch) (q : EtherHeader → Nat → Prop) :
    Wp (etherTags packet base b) q ↔ TagsRead packet base b q := by
  cases b with
  | existsVlan o =>
    unfold etherTags TagsRead TagsEnd
    simp only [readTags]
    rw [wp_bind (doWhile_decided (readTag_gives packet base) o)
      (pppOEBehindTags_decided packet base), wp_doWhile (readTag_gives packet base)]
    simp only [(pppOEBehindTags_gives packet base _).ends.wp_iff]
  | known o protocol headerPppOE => exact wp_pure _

def FromReads (packet : Bytes) (s : EtherStart) (q : Option EtherHeader → Nat → Prop) : Prop :=
  let base := s.linkHeaderOffset + sizeofEtherHeader
  BranchReads packet base s.etherType (fun b stop =>
    TagsRead packet base b (fun h stop' =>
      q (some { h with
        headerIpOffset := (h.headerIpOffset + base) % 2 ^ 16
        headerEth := some s.linkHeaderOffset }) (max stop stop')))

def EtherReads (packet : Bytes) (link : Nat) (q : Option EtherHeader → Nat → Prop) : Prop :=
  if be16 packet (link + 12) = 0x8903 then
    FromReads packet ⟨link + 20, be16 packet (link + 20 + 12)⟩
      (fun h stop => q h (max (link + 20 + 14) stop))
  else FromReads packet ⟨link, be16 packet (link + 12)⟩ q

def SllReads (packet : Bytes) (protocol size : Nat) (q : Option EtherHeader → Nat → Prop) : Prop :=
  if protocol = 0x8100 then
    TagsEnd packet sizeofSllHeader 0 (fun t =>
      q (some
        { headerIpOffset := (t.headerIpOffset + size) % 2 ^ 16
          protocol := t.protocol
          vlan := t.vlan }))
  else q (some { headerIpOffset := size, protocol := protocol }) 0

/-- The tags and labels of the frame end, and `q` holds of the header that the frame describes and
of the position behind the fields looked at. -/
def FrameReads (packet : Bytes) (linkType : LinkType) (q : Option EtherHeader → Nat → Prop) :
    Prop :=
  match linkType with
  | .linuxSll => SllReads packet (be16 packet 14) sizeofSllHeader q
  | .linuxSll2 => SllReads packet (be16 packet 0) sizeofSll2Header q
  | .atmRfc1483 => EtherReads packet 10 q
  | .en10mb => EtherReads packet 0 q
  | .raw => q (some { headerIpOffset := 0, protocol := ethertypeIp }) 0
  | .ieee80211Radio => q (some { headerIpOffset := 52, protocol := ethertypeIp }) 0
  | .mtp2WithPhdr | .mtp2 => q (some { headerIpOffset := 0xFFFF, protocol := 0 }) 0
  | .null => q (some { headerIpOffset := 4, protocol := ethertypeIp }) 0
  | .other => q none 0

/-! ## The call -/

lemma skipFabricPath_decided (packet : Bytes) (link : Nat) :
    Decided (fun _ => skipFabricPath packet link) :=
  ((Decided.read16 packet (link + 20 + 12)).bind (fun _ => Decided.pure _)).ite (Decided.pure _)

lemma wp_skipFabricPath (packet : Bytes) (link : Nat) (q : EtherStart → Nat → Prop) :
    Wp (fun _ => skipFabricPath packet link) q ↔
      if be16 packet (link + 12) = 0x8903 then
        q ⟨link + 20, be16 packet (link + 20 + 12)⟩ (link + 20 + 14)
      else q ⟨link, be16 packet (link + 12)⟩ 0 := by
  unfold skipFabricPath
  rw [wp_ite, wp_bind (Decided.read16 packet (link + 20 + 12)) (fun _ => Decided.pure _),
    wp_read16, wp_pure, wp_pure, Nat.max_zero]

lemma parseFrom_decided (packet : Bytes) (s : EtherStart) : Decided (parseFrom packet s) :=
  (etherBranch_decided packet _ _).bind (fun b =>
    (etherTags_decided packet _ b).bind (fun _ => Decided.pure _))

lemma wp_parseFrom (packet : Bytes) (s : EtherStart) (q : Option EtherHeader → Nat → Prop) :
    Wp (parseFrom packet s) q ↔ FromReads packet s q := by
  unfold parseFrom FromReads
  rw [wp_bind (etherBranch_decided packet _ _) (fun b =>
    (etherTags_decided packet _ b).bind (fun _ => Decided.pure _)), wp_etherBranch]
  simp only [wp_bind (etherTags_decided packet _ _) (fun _ => Decided.pure _), wp_etherTags, wp_pure,
    Nat.max_zero]

lemma parseEther_decided (packet : Bytes) (link : Nat) : Decided (parseEther packet link) :=
  (skipFabricPath_decided packet link).bind (parseFrom_decided packet)

lemma wp_parseEther (packet : Bytes) (link : Nat) (q : Option EtherHeader → Nat → Prop) :
    Wp (parseEther packet link) q ↔ EtherReads packet link q := by
  unfold parseEther EtherReads
  rw [wp_bind (skipFabricPath_decided packet link) (parseFrom_decided packet), wp_skipFabricPath]
  simp only [wp_parseFrom, Nat.zero_max]

lemma parseSll_decided (packet : Bytes) (protocol size : Nat) :
    Decided (parseSll packet protocol size) :=
  ((doWhile_decided (readTag_gives packet sizeofSllHeader) 0).bind (fun _ => Decided.pure _)).ite
    (Decided.pure _)

lemma wp_parseSll (packet : Bytes) (protocol size : Nat) (q : Option EtherHeader → Nat → Prop) :
    Wp (parseSll packet protocol size) q ↔ SllReads packet protocol size q := by
  unfold parseSll SllReads TagsEnd
  simp only [readTags]
  rw [wp_ite, wp_bind (doWhile_decided (readTag_gives packet sizeofSllHeader) 0)
    (fun _ => Decided.pure _), wp_doWhile (readTag_gives packet sizeofSllHeader), wp_pure]
  simp only [wp_pure, Nat.max_zero]

lemma parseEtherHeader_decided (packet : Bytes) (linkType : LinkType) :
    Decided (parseEtherHeader packet linkType) := by
  cases linkType with
  | linuxSll => exact parseSll_decided packet _ _
  | linuxSll2 => exact parseSll_decided packet _ _
  | atmRfc1483 => exact parseEther_decided packet 10
  | en10mb => exact parseEther_decided packet 0
  | raw | ieee80211Radio | mtp2WithPhdr | mtp2 | null | other => exact Decided.pure _

lemma wp_parseEtherHeader (packet : Bytes) (linkType : LinkType)
    (q : Option EtherHeader → Nat → Prop) :
    Wp (parseEtherHeader packet linkType) q ↔ FrameReads packet linkType q := by
  cases linkType with
  | linuxSll => exact wp_parseSll packet _ _ q
  | linuxSll2 => exact wp_parseSll packet _ _ q
  | atmRfc1483 => exact wp_parseEther packet 10 q
  | en10mb => exact wp_parseEther packet 0 q
  | raw | ieee80211Radio | mtp2WithPhdr | mtp2 | null | other => exact wp_pure _

/-- The call ends, and the bytes that its branches look at are captured or `pcapProcess` gives the
packet up. -/
def ReadsCaptured (opt : Options) (src : PacketSource) (packet : Bytes) (linkType : LinkType)
    (caplen len : Nat) : Prop :=
  ∃ fuel h stop, parseEtherHeader packet linkType fuel 0 = some (h, stop) ∧
    (stop ≤ caplen ∨ rejects opt src packet len h)

theorem readsCaptured_iff (opt : Options) (src : PacketSource) (packet : Bytes)
    (linkType : LinkType) (caplen len : Nat) :
    ReadsCaptured opt src packet linkType caplen len ↔
      FrameReads packet linkType
        (fun h stop => stop ≤ caplen ∨ rejects opt src packet len h) := by
  rw [← wp_parseEtherHeader]
  exact wp_iff_run (parseEtherHeader_decided packet linkType)

def cutLabelStack : Bytes :=
  List.replicate 12 0 ++ [0x88, 0x47] ++ [0, 0x10, 0, 64] ++ [0, 0x20, 1, 64] ++ [0x45, 0, 0, 40]

theorem cutLabelStack_reads_behind :
    ¬ReadsCaptured ⟨false, false, false⟩ .headerPacket cutLabelStack .en10mb 18 62 := by
  rintro ⟨fuel, h, stop, hrun, hok⟩
  have hparse : parseEtherHeader cutLabelStack .en10mb 2 0 =
      some (some { headerIpOffset := 22, protocol := 0x0800, headerEth := some 0 }, 21) := by
    decide
  obtain ⟨rfl, rfl⟩ := (parseEtherHeader_decided _ _).unique hparse hrun
  exact absurd hok (by decide)

/-!
## Frames with VLAN tags

A tagged frame is a link header that announces a tag, the tags, the inner EtherType and the rest.
The call finds the tags of a frame where they were put, as long as the offset stays in 16 bits,
behind a `sll_header` and behind an `ether_header`. Behind a `sll2_header` it looks for them four
bytes too early.
-/

inductive TagLink where
  | linuxSll
  | linuxSll2
  | en10mb

def TagLink.linkType : TagLink → LinkType
  | .linuxSll => .linuxSll
  | .linuxSll2 => .linuxSll2
  | .en10mb => .en10mb

def TagLink.headerSize : TagLink → Nat
  | .linuxSll => sizeofSllHeader
  | .linuxSll2 => sizeofSll2Header
  | .en10mb => sizeofEtherHeader

/-- The position of the protocol in the link header. -/
def TagLink.typePos : TagLink → Nat
  | .linuxSll => 14
  | .linuxSll2 => 0
  | .en10mb => 12

def nextType (inner : Nat) : List Nat → Nat
  | [] => inner
  | _ :: _ => 0x8100

def tagBytes (inner : Nat) : List Nat → Bytes
  | [] => []
  | tci :: tags => encodeBe16 tci ++ (encodeBe16 (nextType inner tags) ++ tagBytes inner tags)

structure TaggedFrame where
  link : TagLink
  header : Bytes
  tags : List Nat
  inner : Nat
  payload : Bytes
  length_header : header.length = link.headerSize
  header_type : be16 header link.typePos = 0x8100
  tags_ne : tags ≠ []
  tag_lt : ∀ tci ∈ tags, tci < 2 ^ 16
  inner_lt : inner < 2 ^ 16
  inner_ne_tag : inner ≠ 0x8100
  inner_ne_pppOE : inner ≠ 0x8864

def TaggedFrame.packet (f : TaggedFrame) : Bytes :=
  f.header ++ (tagBytes f.inner f.tags ++ f.payload)

def TaggedFrame.lastId (f : TaggedFrame) : Nat := f.tags.getLast f.tags_ne % 0x1000

def TaggedFrame.headersLength (f : TaggedFrame) : Nat := f.link.headerSize + 4 * f.tags.length

/-! ## The tags of a frame -/

lemma nextType_lt {inner : Nat} (hinner : inner < 2 ^ 16) (tags : List Nat) :
    nextType inner tags < 2 ^ 16 := by
  cases tags with
  | nil => exact hinner
  | cons tci tags => exact (by norm_num : 0x8100 < 2 ^ 16)

lemma lastTag_tagBytes {pre rest : Bytes} {base o tci inner : Nat} {tags : List Nat}
    (hpre : pre.length = base + o) (htci : tci < 2 ^ 16) (hinner : inner < 2 ^ 16) :
    lastTag (pre ++ (tagBytes inner (tci :: tags) ++ rest)) base o =
      if nextType inner tags = 0x8100 then none
      else some ⟨nextOffset o, nextType inner tags, tci % 0x1000⟩ := by
  have htciRead : be16 (pre ++ (tagBytes inner (tci :: tags) ++ rest)) (base + o) = tci := by
    rw [← hpre, ← Nat.add_zero pre.length, be16_append_right, tagBytes, List.append_assoc]
    exact be16_encodeBe16 htci _
  have htypeRead : be16 (pre ++ (tagBytes inner (tci :: tags) ++ rest)) (base + o + 2) =
      nextType inner tags := by
    rw [← hpre, be16_append_right, tagBytes, List.append_assoc, List.append_assoc]
    rw [show 2 = (encodeBe16 tci).length + 0 from rfl, be16_append_right]
    exact be16_encodeBe16 (nextType_lt hinner tags) _
  rw [lastTag, htciRead, htypeRead]

lemma endsAt_tagBytes {inner : Nat} (hinner : inner < 2 ^ 16) (hne : inner ≠ 0x8100) :
    ∀ (tags : List Nat) (htags : tags ≠ []) (pre rest : Bytes) (base o : Nat),
      (∀ tci ∈ tags, tci < 2 ^ 16) → pre.length = base + o → o + 4 * tags.length < 2 ^ 16 →
      EndsAt (lastTag (pre ++ (tagBytes inner tags ++ rest)) base) nextOffset o (tags.length - 1)
        ⟨o + 4 * tags.length, inner, tags.getLast htags % 0x1000⟩ := by
  intro tags
  induction tags with
  | nil => exact fun htags => absurd rfl htags
  | cons tci tags ih =>
    intro htags pre rest base o hlt hpre ho
    have hoffset : nextOffset o = o + 4 := by
      rw [List.length_cons] at ho
      exact Nat.mod_eq_of_lt (by omega)
    cases tags with
    | nil =>
      apply EndsAt.first
      rw [lastTag_tagBytes hpre (hlt tci List.mem_cons_self) hinner, nextType, if_neg hne, hoffset]
      rfl
    | cons tci' tags =>
      have hnone : lastTag (pre ++ (tagBytes inner (tci :: tci' :: tags) ++ rest)) base o = none := by
        rw [lastTag_tagBytes hpre (hlt tci List.mem_cons_self) hinner, nextType, if_pos rfl]
      have hbytes : pre ++ (tagBytes inner (tci :: tci' :: tags) ++ rest) =
          (pre ++ encodeBe16 tci ++ encodeBe16 0x8100) ++
            (tagBytes inner (tci' :: tags) ++ rest) := by
        rw [tagBytes, nextType]
        simp only [List.append_assoc]
      have hpre' : (pre ++ encodeBe16 tci ++ encodeBe16 0x8100).length = base + nextOffset o := by
        rw [List.length_append, List.length_append, hpre, hoffset]
        rfl
      have hrest := ih (List.cons_ne_nil _ _) _ rest base (nextOffset o)
        (fun t ht => hlt t (List.mem_cons_of_mem _ ht)) hpre'
        (by rw [hoffset]; simp only [List.length_cons] at ho ⊢; omega)
      rw [← hbytes] at hrest
      have hlast : nextOffset o + 4 * (tci' :: tags).length =
          o + 4 * (tci :: tci' :: tags).length := by
        rw [hoffset]
        simp only [List.length_cons]
        omega
      rw [hlast] at hrest
      exact hrest.step hnone

lemma tagsEnd_iff {packet : Bytes} {base o k : Nat} {t : Tags} {q : Tags → Nat → Prop}
    (h : EndsAt (lastTag packet base) nextOffset o k t) :
    TagsEnd packet base o q ↔ q t (reach (fun o => base + o + 4) nextOffset k o) := by
  constructor
  · rintro ⟨k', t', h', hq⟩
    obtain ⟨rfl, rfl⟩ := h.unique h'
    exact hq
  · exact fun hq => ⟨k, t, h, hq⟩

/-! ## The call on a tagged frame -/

/-- The call gives back what the frame was built from. -/
def TaggedFrame.Inverts (f : TaggedFrame) : Prop :=
  ∃ fuel h stop, parseEtherHeader f.packet f.link.linkType fuel 0 = some (some h, stop) ∧
    h.headerIpOffset = f.headersLength ∧ h.protocol = f.inner ∧ h.vlan = f.lastId

def TaggedFrame.Finds (f : TaggedFrame) (h : Option EtherHeader) : Prop :=
  ∃ h', h = some h' ∧ h'.headerIpOffset = f.headersLength ∧ h'.protocol = f.inner ∧
    h'.vlan = f.lastId

variable (f : TaggedFrame)

lemma inverts_iff_frameReads :
    f.Inverts ↔ FrameReads f.packet f.link.linkType (fun h _ => f.Finds h) := by
  rw [← wp_parseEtherHeader, ← wp_iff_run (parseEtherHeader_decided f.packet f.link.linkType)]
  constructor
  · rintro ⟨fuel, h, stop, hrun, hfinds⟩
    exact ⟨fuel, some h, stop, hrun, h, rfl, hfinds⟩
  · rintro ⟨fuel, _, stop, hrun, h, rfl, hfinds⟩
    exact ⟨fuel, h, stop, hrun, hfinds⟩

lemma be16_header {o : Nat} (ho : o + 1 < f.link.headerSize) :
    be16 f.packet o = be16 f.header o :=
  (be16_of_isPrefix ⟨_, rfl⟩ (by rw [f.length_header]; exact ho)).symm

lemma typePos_lt : f.link.typePos + 1 < f.link.headerSize := by
  cases f.link <;> decide

lemma packet_type : be16 f.packet f.link.typePos = 0x8100 := by
  rw [be16_header f (typePos_lt f), f.header_type]

lemma endsAt_frame (base o : Nat) (hbase : base + o = f.link.headerSize)
    (ho : o + 4 * f.tags.length < 2 ^ 16) :
    EndsAt (lastTag f.packet base) nextOffset o (f.tags.length - 1)
      ⟨o + 4 * f.tags.length, f.inner, f.lastId⟩ :=
  endsAt_tagBytes f.inner_lt f.inner_ne_tag f.tags f.tags_ne f.header f.payload base o f.tag_lt
    (by rw [f.length_header, hbase]) ho

lemma tags_lt (hlt : f.headersLength < 2 ^ 16) : 0 + 4 * f.tags.length < 2 ^ 16 := by
  unfold TaggedFrame.headersLength at hlt
  omega

lemma offset_eq (hlt : f.headersLength < 2 ^ 16) :
    (0 + 4 * f.tags.length + f.link.headerSize) % 2 ^ 16 = f.headersLength := by
  unfold TaggedFrame.headersLength at hlt ⊢
  rw [Nat.mod_eq_of_lt (by omega)]
  omega

lemma headersLength_lt {t : Tags} {n : Nat}
    (h : f.Finds (some
      { headerIpOffset := (t.headerIpOffset + n) % 2 ^ 16
        protocol := t.protocol
        vlan := t.vlan })) :
    f.headersLength < 2 ^ 16 := by
  obtain ⟨h', heq, hoffset, -⟩ := h
  cases heq
  rw [← hoffset]
  exact Nat.mod_lt _ (by norm_num)

lemma inverts_linuxSll (hlink : f.link = .linuxSll) :
    f.Inverts ↔ f.headersLength < 2 ^ 16 := by
  have htype : be16 f.packet 14 = 0x8100 := by
    have h := packet_type f
    rwa [hlink] at h
  rw [inverts_iff_frameReads, hlink]
  change SllReads f.packet (be16 f.packet 14) sizeofSllHeader (fun h _ => f.Finds h) ↔ _
  rw [htype, SllReads, if_pos rfl]
  constructor
  · rintro ⟨k, t, -, hfinds⟩
    exact headersLength_lt f hfinds
  · intro hlt
    have hends := endsAt_frame f 16 0 (by rw [hlink]; rfl) (tags_lt f hlt)
    have hoffset := offset_eq f hlt
    rw [hlink] at hoffset
    exact (tagsEnd_iff hends).mpr ⟨_, rfl, hoffset, rfl, rfl⟩

lemma inverts_en10mb (hlink : f.link = .en10mb) : f.Inverts ↔ f.headersLength < 2 ^ 16 := by
  have htype : be16 f.packet (0 + 12) = 0x8100 := by
    have h := packet_type f
    rwa [hlink] at h
  rw [inverts_iff_frameReads, hlink]
  change EtherReads f.packet 0 (fun h _ => f.Finds h) ↔ _
  rw [EtherReads, htype, if_neg (by decide), FromReads, BranchReads, if_pos rfl, TagsRead]
  constructor
  · rintro ⟨k, t, -, h', heq, hoffset, -⟩
    cases heq
    rw [← hoffset]
    exact Nat.mod_lt _ (by norm_num)
  · intro hlt
    have hends := endsAt_frame f 14 0 (by rw [hlink]; rfl) (tags_lt f hlt)
    have hoffset := offset_eq f hlt
    rw [hlink] at hoffset
    apply (tagsEnd_iff hends).mpr
    rw [headerBehindTags, if_neg (fun h => f.inner_ne_pppOE h.1)]
    exact ⟨_, rfl, hoffset, rfl, rfl⟩

lemma inverts_linuxSll2 (hlink : f.link = .linuxSll2) :
    f.Inverts ↔ f.tags.length = 1 ∧ be16 f.header 18 = f.inner ∧
      be16 f.header 16 % 0x1000 = f.lastId := by
  have htype : be16 f.packet 0 = 0x8100 := by
    have h := packet_type f
    rwa [hlink] at h
  have hsize : f.headersLength = 20 + 4 * f.tags.length := by
    rw [TaggedFrame.headersLength, hlink]
    rfl
  have htci : be16 f.packet (16 + 0) = be16 f.header 16 := be16_header f (by rw [hlink]; decide)
  have hprotocol : be16 f.packet (16 + 0 + 2) = be16 f.header 18 :=
    be16_header f (by rw [hlink]; decide)
  rw [inverts_iff_frameReads, hlink]
  change SllReads f.packet (be16 f.packet 0) sizeofSll2Header (fun h _ => f.Finds h) ↔ _
  rw [htype, SllReads, if_pos rfl]
  change TagsEnd f.packet 16 0 _ ↔ _
  by_cases htag : be16 f.header 18 = 0x8100
  · -- The tags of the frame follow, with an offset that is four too large.
    apply iff_of_false
    · rintro ⟨k, t, hends, hfinds⟩
      have hlt := headersLength_lt f hfinds
      have hfirst : lastTag f.packet 16 0 = none := by
        rw [lastTag, hprotocol, if_pos htag]
      have hframe := endsAt_frame f 16 (nextOffset 0) (by rw [hlink]; rfl)
        (by change 4 + 4 * f.tags.length < 2 ^ 16; omega)
      obtain ⟨-, rfl⟩ := (hframe.step hfirst).unique hends
      obtain ⟨h', heq, hoffset, -⟩ := hfinds
      cases heq
      change (4 + 4 * f.tags.length + 20) % 2 ^ 16 = f.headersLength at hoffset
      omega
    · exact fun h => f.inner_ne_tag (h.2.1.symm.trans htag)
  · have hfirst : lastTag f.packet 16 0 =
        some ⟨4, be16 f.header 18, be16 f.header 16 % 0x1000⟩ := by
      rw [lastTag, hprotocol, if_neg htag, htci]
      rfl
    rw [tagsEnd_iff (EndsAt.first hfirst)]
    constructor
    · rintro ⟨h', heq, hoffset, hinner, hvlan⟩
      cases heq
      change 24 = f.headersLength at hoffset
      exact ⟨by omega, hinner, hvlan⟩
    · rintro ⟨hone, hinner, hvlan⟩
      refine ⟨_, rfl, ?_, hinner, hvlan⟩
      change 24 = f.headersLength
      omega

/-- The call finds the headers of a frame behind a `sll_header` or an `ether_header` when their
length fits in 16 bits. Behind a `sll2_header` it does so when that header happens to end with the
bytes of the only tag and of the type behind it. -/
theorem inverts_iff :
    f.Inverts ↔
      (f.link ≠ .linuxSll2 ∧ f.headersLength < 2 ^ 16) ∨
      (f.link = .linuxSll2 ∧ f.tags.length = 1 ∧ be16 f.header 18 = f.inner ∧
        be16 f.header 16 % 0x1000 = f.lastId) := by
  cases hlink : f.link with
  | linuxSll => simp [inverts_linuxSll f hlink]
  | linuxSll2 => simp [inverts_linuxSll2 f hlink]
  | en10mb => simp [inverts_en10mb f hlink]

def taggedSll2 : TaggedFrame where
  link := .linuxSll2
  header := [0x81, 0, 0, 0, 0, 0, 0, 2, 0, 1, 0, 6, 2, 0, 0, 0, 0, 1, 0, 0]
  tags := [5]
  inner := 0x0800
  payload := [0x45, 0, 0, 20]
  length_header := by decide
  header_type := by decide
  tags_ne := by decide
  tag_lt := by decide
  inner_lt := by decide
  inner_ne_tag := by decide
  inner_ne_pppOE := by decide

theorem taggedSll2_not_inverts : ¬∀ f : TaggedFrame, f.Inverts := by
  intro hall
  obtain ⟨fuel, h, stop, hrun, -, hprotocol, -⟩ := hall taggedSll2
  have hparse : parseEtherHeader taggedSll2.packet .linuxSll2 1 0 =
      some (some { headerIpOffset := 24, protocol := 0, vlan := 1 }, 20) := by
    decide
  obtain ⟨heq, -⟩ := (parseEtherHeader_decided _ _).unique hparse hrun
  cases heq
  exact absurd hprotocol (by decide)

end VoipMonitor.LinkLayer
