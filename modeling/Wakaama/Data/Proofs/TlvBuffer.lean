import Wakaama.Data.TlvBuffer
import Wakaama.Data.Proofs.TlvParse

/-!
# What `tlv_parse` reads and takes

The headers and the contents that are read lie inside of the buffer as long as the `int` index
holds. A buffer that is taken starts with complete records; what is left behind them is not looked
at.
-/

namespace Wakaama

section header

variable {buffer rest : List UInt8} {start : Nat} {first : UInt8}

theorem tlvHeaderIdAt_eq (h : buffer.drop start = first :: rest) {id : UInt16} {idLen : Nat}
    (hid : tlvHeaderId first rest = some (id, idLen)) :
    tlvHeaderIdAt buffer start first = .ok (id, 1 + idLen) := by
  have hnext := drop_next h
  unfold tlvHeaderId at hid
  unfold tlvHeaderIdAt
  split at hid
  · rename_i hwide
    split at hid
    · cases hid
      rw [if_pos hwide, show (start : Int) + 1 = (start + 1 : Nat) from rfl, loadAt_drop hnext,
        ok_bind, show (start : Int) + 2 = (start + 1 + 1 : Nat) from rfl,
        loadAt_drop (drop_next hnext), ok_bind]
      rfl
    · cases hid
  · rename_i hnarrow
    split at hid
    · cases hid
      rw [if_neg hnarrow, show (start : Int) + 1 = (start + 1 : Nat) from rfl, loadAt_drop hnext,
        ok_bind]
      rfl
    · cases hid

theorem tlvHeaderId_inside {id : UInt16} {idLen : Nat}
    (hid : tlvHeaderId first rest = some (id, idLen)) : idLen ≤ rest.length ∧ idLen ≤ 2 := by
  unfold tlvHeaderId at hid
  split at hid
  · split at hid
    · cases hid
      exact ⟨Nat.le_add_left 2 _, Nat.le_refl 2⟩
    · cases hid
  · split at hid
    · cases hid
      exact ⟨Nat.le_add_left 1 _, Nat.le_succ 1⟩
    · cases hid

theorem tlvHeaderId_room (hrest : rest ≠ []) :
    if first &&& 0x20 = 0x20 ∧ rest.length < 2 then tlvHeaderId first rest = none
    else ∃ id idLen, tlvHeaderId first rest = some (id, idLen) := by
  unfold tlvHeaderId
  by_cases hwide : first &&& 0x20 = 0x20
  · match rest with
    | [] => exact absurd rfl hrest
    | [_] =>
      rw [if_pos ⟨hwide, Nat.le_refl 2⟩, if_pos hwide]
    | _ :: _ :: more =>
      rw [if_neg fun h => absurd h.2 (Nat.not_lt.2 (Nat.le_add_left 2 more.length)), if_pos hwide]
      exact ⟨_, _, rfl⟩
  · match rest with
    | [] => exact absurd rfl hrest
    | _ :: _ =>
      rw [if_neg fun h => hwide h.1, if_neg hwide]
      exact ⟨_, _, rfl⟩

end header

variable {buffer : List UInt8} {dataLen depth : Nat}

theorem tlvLengthAt_eq (width : Nat) :
    ∀ {start value : Nat} {rest : List UInt8}, buffer.drop start = rest → width ≤ rest.length →
      tlvLengthAt buffer start width value =
        .ok ((rest.take width).foldl (fun value byte => value * 256 + byte.toNat) value) := by
  induction width with
  | zero =>
    intro start value rest _ _
    rw [tlvLengthAt, List.take_zero]
    rfl
  | succ width ih =>
    intro start value rest h hroom
    cases rest with
    | nil => exact absurd hroom (Nat.not_succ_le_zero width)
    | cons byte rest =>
      rw [tlvLengthAt, loadAt_drop h, ok_bind, show (start : Int) + 1 = (start + 1 : Nat) from rfl,
        ih (drop_next h) (Nat.le_of_succ_le_succ hroom)]
      rfl

theorem lwm2mDecodeTlvAt_eq {buffer : List UInt8} {start : Nat} :
    lwm2mDecodeTlvAt buffer start (buffer.length - start) =
      .ok (lwm2mDecodeTlv (buffer.drop start)) := by
  have hlength := @List.length_drop _ start buffer
  unfold lwm2mDecodeTlvAt lwm2mDecodeTlv
  match hs : buffer.drop start with
  | [] =>
    rw [hs, List.length_nil] at hlength
    rw [if_pos (by omega)]
  | [_] =>
    rw [hs, List.length_singleton] at hlength
    rw [if_pos (by omega)]
  | first :: second :: rest =>
    rw [hs, List.length_cons] at hlength
    rw [List.length_cons] at hlength
    rw [if_neg (by omega), loadAt_drop hs, ok_bind]
    dsimp only
    have hroom := @tlvHeaderId_room (second :: rest) first (List.cons_ne_nil _ _)
    split at hroom
    · rename_i hshort
      rw [List.length_cons] at hshort
      rw [if_pos ⟨hshort.1, by omega⟩, hroom]
      rfl
    · rename_i hlong
      rw [List.length_cons] at hlong
      obtain ⟨id, idLen, hid⟩ := hroom
      have hdrop : buffer.drop (start + (1 + idLen)) = (second :: rest).drop idLen := by
        rw [← List.drop_drop, hs, Nat.add_comm 1]
        rfl
      have hbehind : ((second :: rest).drop idLen).length = rest.length + 1 - idLen :=
        List.length_drop
      rw [if_neg fun h => hlong ⟨h.1, by omega⟩, hid, tlvHeaderIdAt_eq hs hid, ok_bind]
      dsimp only
      have hinside := (tlvHeaderId_inside hid).1
      rw [List.length_cons] at hinside
      unfold tlvHeaderDataLen
      dsimp only
      have hplace : (start : Int) + (1 + idLen : Nat) = (start + (1 + idLen) : Nat) := rfl
      generalize hwidth : ((first &&& 0x18) >>> 3).toNat = width
      by_cases hzero : width = 0
      · subst hzero
        rw [if_neg (by omega), if_pos rfl, if_pos rfl, ok_bind]
        dsimp only
        rw [← hlength, List.length_cons, List.length_cons]
        split <;> rfl
      · rw [if_neg hzero, if_neg hzero, hbehind]
        by_cases hshort : rest.length + 1 - idLen < width
        · rw [if_pos (by omega), if_pos hshort]
          rfl
        · rw [if_neg (by omega), if_neg hshort, hplace,
            tlvLengthAt_eq width hdrop (by rw [hbehind]; omega), ok_bind]
          dsimp only
          rw [← hlength, List.length_cons, List.length_cons]
          split <;> rfl

theorem lwm2mDecodeTlvAt_outside {start : Int} {bufferLen : Nat} (hstart : start < 0)
    (hlength : 2 ≤ bufferLen) : lwm2mDecodeTlvAt buffer start bufferLen = .error .outOfBounds := by
  unfold lwm2mDecodeTlvAt
  rw [if_neg (Nat.not_lt.2 hlength), loadAt_outside hstart]
  rfl

theorem lengthWidth_le (first : UInt8) : ((first &&& 0x18) >>> 3).toNat ≤ 3 := by
  have hmask : (first &&& 0x18).toNat ≤ 24 := by
    rw [UInt8.toNat_and]
    exact Nat.and_le_right
  rw [UInt8.toNat_shiftRight]
  show (first &&& 0x18).toNat >>> 3 ≤ 3
  rw [Nat.shiftRight_eq_div_pow]
  omega

theorem tlvHeaderDataLen_lt {first : UInt8} {rest : List UInt8} {width : Nat}
    (h : tlvHeaderDataLen first rest = some (dataLen, width)) : dataLen < 2 ^ 24 ∧ width ≤ 3 := by
  have hwidth := lengthWidth_le first
  unfold tlvHeaderDataLen at h
  dsimp only at h
  split at h
  · cases h
    have hmask : (first &&& 0x07).toNat ≤ 7 := by
      rw [UInt8.toNat_and]
      exact Nat.and_le_right
    omega
  · split at h
    · cases h
    · cases h
      have hvalue := bigEndianValue_lt (rest.take ((first &&& 0x18) >>> 3).toNat)
      have hpow := Nat.pow_le_pow_right (show 0 < 256 by decide)
        (Nat.le_trans (List.length_take_le _ rest) hwidth)
      exact ⟨Nat.lt_of_lt_of_le hvalue hpow, hwidth⟩

theorem lwm2mDecodeTlv_lt {type : DataType} {id : UInt16} {dataIndex : Nat}
    (h : lwm2mDecodeTlv buffer = some (type, id, dataIndex, dataLen)) :
    dataLen < 2 ^ 24 ∧ dataIndex ≤ 6 := by
  unfold lwm2mDecodeTlv at h
  split at h
  · cases h
  · cases h
  · split at h
    · cases h
    · rename_i hid
      split at h
      · cases h
      · rename_i hlength
        have hidLen := (tlvHeaderId_inside hid).2
        obtain ⟨hlt, hwidth⟩ := tlvHeaderDataLen_lt hlength
        dsimp only at h
        split at h
        · cases h
        · cases h
          exact ⟨hlt, by omega⟩

theorem tlvParseAll_start (h : lwm2mDecodeTlv buffer = none) : tlvParseAll buffer = some [] := by
  unfold tlvParseAll
  cases buffer with
  | nil => rfl
  | cons first rest =>
    rw [List.length_cons, tlvParseLoop, h]

theorem tlvParseAll_record {type : DataType} {id : UInt16} {dataIndex : Nat}
    (h : lwm2mDecodeTlv buffer = some (type, id, dataIndex, dataLen)) :
    tlvParseAll buffer ≠ some [] := by
  rw [tlvParseAll_eq h]
  intro hnil
  split at hnil
  · cases hcontent : tlvContent (tlvParseAll ((buffer.drop dataIndex).take dataLen)) with
    | none =>
      rw [hcontent] at hnil
      cases hnil
    | some array =>
      rw [hcontent] at hnil
      obtain ⟨more, -, hmore⟩ := Option.map_eq_some_iff.1 hnil
      cases hmore
  · obtain ⟨more, -, hmore⟩ := Option.map_eq_some_iff.1 hnil
    cases hmore

theorem tlvParse_eq (buffer : List UInt8) : tlvParse buffer = (tlvParseAll buffer).getD [] := rfl

theorem tlvContent_none (h : tlvParse buffer = []) : tlvContent (tlvParseAll buffer) = none := by
  rw [tlvParse_eq] at h
  match hparse : tlvParseAll buffer, h with
  | none, _ => rfl
  | some [], _ => rfl
  | some (data :: rest), h => cases h

theorem tlvContent_some (h : tlvParse buffer ≠ []) :
    tlvContent (tlvParseAll buffer) = some (tlvParse buffer) := by
  rw [tlvParse_eq] at h ⊢
  match hparse : tlvParseAll buffer, h with
  | none, h => exact absurd rfl h
  | some [], h => exact absurd rfl h
  | some (data :: rest), _ => rfl

theorem tlvParse_of_refused (h : TlvRefused buffer) : tlvParse buffer = [] := by
  induction h with
  | start header => rw [tlvParse_eq, tlvParseAll_start header, Option.getD_some]
  | content header container _ ih =>
    rw [tlvParse_eq, tlvParseAll_eq header, if_pos container, tlvContent_none ih]
    rfl
  | @later buffer type id dataIndex dataLen header more _ ih =>
    have hnone : tlvParseAll (buffer.drop (dataIndex + dataLen)) = none := by
      obtain ⟨record, hrecord⟩ := Option.ne_none_iff_exists'.1 more
      have hsome := tlvParseAll_record hrecord
      rw [tlvParse_eq] at ih
      cases hparse : tlvParseAll (buffer.drop (dataIndex + dataLen)) with
      | none => rfl
      | some parsed =>
        rw [hparse, Option.getD_some] at ih
        exact absurd (ih ▸ hparse) hsome
    rw [tlvParse_eq, tlvParseAll_eq header, hnone]
    split
    · cases tlvContent (tlvParseAll ((buffer.drop dataIndex).take dataLen)) <;> rfl
    · rfl

theorem tlvRefused_of_parse (n : Nat) : ∀ {buffer : List UInt8}, buffer.length < n →
    tlvParse buffer = [] → TlvRefused buffer := by
  induction n with
  | zero =>
    intro buffer hlength _
    exact absurd hlength (Nat.not_lt_zero _)
  | succ n ih =>
    intro buffer hlength h
    cases hheader : lwm2mDecodeTlv buffer with
    | none => exact TlvRefused.start hheader
    | some header =>
      obtain ⟨type, id, dataIndex, dataLen⟩ := header
      obtain ⟨hindex, hroom⟩ := lwm2mDecodeTlv_bounds hheader
      have hrest : (buffer.drop (dataIndex + dataLen)).length < n := by
        rw [List.length_drop]
        omega
      have hdata : ((buffer.drop dataIndex).take dataLen).length < n := by
        rw [List.length_take, List.length_drop]
        omega
      -- the rest is given up, so it starts with a record
      have hlater : tlvParseAll (buffer.drop (dataIndex + dataLen)) = none → TlvRefused buffer := by
        intro hnone
        refine TlvRefused.later hheader (fun hstart => ?_) (ih hrest ?_)
        · rw [tlvParseAll_start hstart] at hnone
          cases hnone
        · rw [tlvParse_eq, hnone]
          rfl
      rw [tlvParse_eq, tlvParseAll_eq hheader] at h
      cases hmore : tlvParseAll (buffer.drop (dataIndex + dataLen)) with
      | none => exact hlater hmore
      | some more =>
        rw [hmore] at h
        split at h
        · rename_i hcontainer
          refine TlvRefused.content hheader hcontainer (ih hdata ?_)
          by_contra hsome
          rw [tlvContent_some hsome] at h
          cases h
        · cases h

theorem tlvParse_nil_iff : tlvParse buffer = [] ↔ TlvRefused buffer :=
  ⟨tlvRefused_of_parse _ (Nat.lt_succ_self _), tlvParse_of_refused⟩

theorem tlvReaches_le {offset : Nat} (h : TlvReaches buffer offset) : offset ≤ buffer.length := by
  induction h with
  | start => exact Nat.zero_le _
  | record header _ _ ih =>
    have hroom := (lwm2mDecodeTlv_bounds header).2
    rw [List.length_drop] at ih
    omega

section rounds

variable {nested : List UInt8 → Except Fault (List Lwm2mData)} {buffer : List UInt8}

/-- A call for a content answers what the content is parsed to. -/
def ParsesContents (nested : List UInt8 → Except Fault (List Lwm2mData)) (buffer : List UInt8) :
    Prop :=
  ∀ content : List UInt8, content.length < 2 ^ 24 → content.length + 2 ≤ buffer.length →
    nested content = .ok (tlvParse content)

theorem tlvParseRounds_record (hnested : ParsesContents nested buffer) {start fuel : Nat}
    {parsed : List Lwm2mData} {type : DataType} {id : UInt16} {dataIndex dataLen : Nat}
    (hheader : lwm2mDecodeTlv (buffer.drop start) = some (type, id, dataIndex, dataLen)) :
    tlvParseRounds nested buffer (fuel + 1) start parsed =
      if type.tlvContainer then
        if tlvParse (((buffer.drop start).drop dataIndex).take dataLen) = [] then .ok []
        else
          tlvParseRounds nested buffer fuel (toInt (start + (dataIndex + dataLen) : Nat))
            (parsed ++ [.node type id
              (.asChildren (tlvParse (((buffer.drop start).drop dataIndex).take dataLen)))])
      else
        tlvParseRounds nested buffer fuel (toInt (start + (dataIndex + dataLen) : Nat))
          (parsed ++ [.node .opaqueBytes id
            (.asBuffer (((buffer.drop start).drop dataIndex).take dataLen))]) := by
  obtain ⟨hindex, hroom⟩ := lwm2mDecodeTlv_bounds hheader
  have hlt := (lwm2mDecodeTlv_lt hheader).1
  rw [List.length_drop] at hroom
  have hload : loadBytes buffer (start + dataIndex : Int) dataLen =
      .ok (((buffer.drop start).drop dataIndex).take dataLen) := by
    rw [List.drop_drop]
    exact loadBytes_inside (by omega)
  have hcall : nested (((buffer.drop start).drop dataIndex).take dataLen) =
      .ok (tlvParse (((buffer.drop start).drop dataIndex).take dataLen)) := by
    have hlength : (((buffer.drop start).drop dataIndex).take dataLen).length ≤ dataLen :=
      List.length_take_le _ _
    exact hnested _ (by omega) (by omega)
  have hbuffer : ((buffer.length : Int) - (start : Int)).toNat = buffer.length - start := by omega
  rw [tlvParseRounds, hbuffer, lwm2mDecodeTlvAt_eq, hheader, ok_bind]
  dsimp only
  rw [hload, ok_bind, hcall, ok_bind]
  simp only [List.length_eq_zero_iff]
  rfl

theorem tlvParseRounds_stop {start fuel : Nat} {parsed : List Lwm2mData}
    (hheader : lwm2mDecodeTlv (buffer.drop start) = none) :
    tlvParseRounds nested buffer (fuel + 1) start parsed = .ok parsed := by
  have hbuffer : ((buffer.length : Int) - (start : Int)).toNat = buffer.length - start := by omega
  rw [tlvParseRounds, hbuffer, lwm2mDecodeTlvAt_eq, hheader, ok_bind]
  rfl

theorem toInt_small {n : Nat} (h : n < 2 ^ 31) : toInt n = n := by
  unfold toInt
  rw [Int.bmod_eq_of_le (by omega) (by omega)]

/-- As long as the index holds, the loop makes what is parsed without it. -/
theorem tlvParseRounds_eq (hnested : ParsesContents nested buffer) (fuel : Nat) :
    ∀ {start : Nat} {parsed : List Lwm2mData}, buffer.length - start < fuel →
      (∀ offset, TlvReaches (buffer.drop start) offset → start + offset < 2 ^ 31) →
      tlvParseRounds nested buffer fuel start parsed =
        .ok (((tlvParseAll (buffer.drop start)).map (parsed ++ ·)).getD []) := by
  induction fuel with
  | zero =>
    intro start parsed hfuel _
    exact absurd hfuel (Nat.not_lt_zero _)
  | succ fuel ih =>
    intro start parsed hfuel hreach
    cases hheader : lwm2mDecodeTlv (buffer.drop start) with
    | none =>
      rw [tlvParseRounds_stop hheader, tlvParseAll_start hheader]
      show _ = Except.ok (parsed ++ [])
      rw [List.append_nil]
    | some header =>
      obtain ⟨type, id, dataIndex, dataLen⟩ := header
      obtain ⟨hindex, hroom⟩ := lwm2mDecodeTlv_bounds hheader
      rw [List.length_drop] at hroom
      rw [tlvParseRounds_record hnested hheader, tlvParseAll_eq hheader]
      -- the rounds behind the record
      have hnext : (type.tlvContainer = true →
            ¬ TlvRefused (((buffer.drop start).drop dataIndex).take dataLen)) →
          ∀ data : Lwm2mData, tlvParseRounds nested buffer fuel
              (toInt (start + (dataIndex + dataLen) : Nat)) (parsed ++ [data]) =
            .ok ((((tlvParseAll ((buffer.drop start).drop (dataIndex + dataLen))).map
              (data :: ·)).map (parsed ++ ·)).getD []) := by
        intro hcontent data
        have hend := hreach _ (TlvReaches.record hheader hcontent TlvReaches.start)
        rw [toInt_small (by omega), ih (by omega) ?_, ← List.drop_drop, Option.map_map]
        · congr 3
          funext more
          exact List.append_assoc _ _ _
        · intro offset hoffset
          rw [← List.drop_drop] at hoffset
          have := hreach _ (TlvReaches.record hheader hcontent hoffset)
          omega
      split
      · split
        · rename_i hnil
          rw [tlvContent_none hnil]
          rfl
        · rename_i hsome
          rw [hnext fun _ hrefused => hsome (tlvParse_of_refused hrefused)]
          rw [tlvContent_some hsome]
          rfl
      · rename_i hleaf
        exact hnext (fun hcontainer => absurd hcontainer hleaf) _

/-- Where the index does not hold, the loop reads in front of the buffer. -/
theorem tlvParseRounds_overflow (hnested : ParsesContents nested buffer) {left : List UInt8}
    {offset : Nat} (h : TlvReaches left offset) :
    ∀ {start fuel : Nat} {parsed : List Lwm2mData}, buffer.drop start = left → start < 2 ^ 31 →
      2 ^ 31 ≤ start + offset → ∃ fault,
        tlvParseRounds nested buffer fuel start parsed = .error fault := by
  induction h with
  | start =>
    intro start fuel parsed _ hlow hhigh
    exact absurd hlow (Nat.not_lt.2 hhigh)
  | @record left type id dataIndex dataLen offset header content _ ih =>
    intro start fuel parsed hleft hlow hhigh
    obtain ⟨hlen, hindex⟩ := lwm2mDecodeTlv_lt header
    subst hleft
    have hroom := (lwm2mDecodeTlv_bounds header).2
    rw [List.length_drop] at hroom
    cases fuel with
    | zero => exact ⟨_, rfl⟩
    | succ fuel =>
      -- the next round
      have hnext : ∀ more, ∃ fault, tlvParseRounds nested buffer fuel
          (toInt (start + (dataIndex + dataLen) : Nat)) more = .error fault := by
        intro more
        by_cases hfits : start + (dataIndex + dataLen) < 2 ^ 31
        · rw [toInt_small hfits]
          exact ih List.drop_drop.symm hfits (by omega)
        · have hwrap : toInt (start + (dataIndex + dataLen) : Nat) < 0 := by
            unfold toInt
            rw [Int.bmod_def]
            omega
          cases fuel with
          | zero => exact ⟨_, rfl⟩
          | succ fuel =>
            rw [tlvParseRounds, lwm2mDecodeTlvAt_outside hwrap (by omega)]
            exact ⟨_, rfl⟩
      rw [tlvParseRounds_record hnested header]
      split
      · rename_i hcontainer
        rw [if_neg fun hnil => content hcontainer (tlvParse_nil_iff.1 hnil)]
        exact hnext _
      · exact hnext _

end rounds

theorem tlvParseAt_succ (hnested : ParsesContents (tlvParseAt depth) buffer)
    (hreach : ∀ offset, TlvReaches buffer offset → offset < 2 ^ 31) :
    tlvParseAt (depth + 1) buffer = .ok (tlvParse buffer) := by
  have hrounds := @tlvParseRounds_eq _ buffer hnested (buffer.length + 1) 0 [] (by omega)
  rw [List.drop_zero] at hrounds
  rw [tlvParseAt]
  refine (hrounds fun offset hoffset => ?_).trans ?_
  · rw [Nat.zero_add]
    exact hreach offset hoffset
  · rw [tlvParse_eq]
    cases tlvParseAll buffer <;> rfl

theorem tlvParseAt_contents (depth : Nat) : ∀ {buffer : List UInt8}, buffer.length < depth + 1 →
    ParsesContents (tlvParseAt depth) buffer := by
  induction depth with
  | zero =>
    intro buffer hlength content _ hinside
    omega
  | succ depth ih =>
    intro buffer hlength content hshort hinside
    apply tlvParseAt_succ (ih (by omega))
    intro offset hoffset
    have := tlvReaches_le hoffset
    omega

theorem tlvParseAt_reads (hdepth : buffer.length < depth)
    (hreach : ∀ offset, TlvReaches buffer offset → offset < 2 ^ 31) :
    tlvParseAt depth buffer = .ok (tlvParse buffer) := by
  cases depth with
  | zero => exact absurd hdepth (Nat.not_lt_zero _)
  | succ depth => exact tlvParseAt_succ (tlvParseAt_contents depth hdepth) hreach

theorem tlvParseAt_leaves {offset : Nat} (hdepth : buffer.length < depth)
    (hreached : TlvReaches buffer offset) (hlong : 2 ^ 31 ≤ offset) :
    ∃ fault, tlvParseAt depth buffer = .error fault := by
  cases depth with
  | zero => exact absurd hdepth (Nat.not_lt_zero _)
  | succ depth =>
    rw [tlvParseAt]
    exact @tlvParseRounds_overflow _ buffer (tlvParseAt_contents depth hdepth) _ _ hreached 0 _ _
      List.drop_zero (by omega) (by omega)

/-- A buffer is parsed safely and taken only when complete exactly where the records in front end
within the range of an `int`, and either nothing is left behind the last complete record at any
level or the buffer is refused. `lwm2m_decode_TLV` reads inside of every buffer. -/
theorem tlvParsesCompletely_iff (buffer : List UInt8) :
    (TlvParsesCompletely buffer ↔
      (∀ offset, TlvReaches buffer offset → offset < 2 ^ 31) ∧
        (TlvComplete buffer ∨ TlvRefused buffer)) ∧
      lwm2mDecodeTlvAt buffer 0 buffer.length = .ok (lwm2mDecodeTlv buffer) := by
  refine ⟨⟨?_, ?_⟩, @lwm2mDecodeTlvAt_eq buffer 0⟩
  · intro h
    obtain ⟨parsed, hparsed, hcomplete⟩ := h
    have hrun := hparsed (buffer.length + 1) (Nat.lt_succ_self _)
    have hreach : ∀ offset, TlvReaches buffer offset → offset < 2 ^ 31 := by
      intro offset hreached
      by_contra hlong
      obtain ⟨fault, hfault⟩ :=
        tlvParseAt_leaves (Nat.lt_succ_self _) hreached (Nat.not_lt.1 hlong)
      rw [hrun] at hfault
      cases hfault
    refine ⟨hreach, ?_⟩
    have hreads := tlvParseAt_reads (Nat.lt_succ_self _) hreach
    have hsame : parsed = tlvParse buffer := Except.ok.inj (hrun.symm.trans hreads)
    by_cases hrefused : TlvRefused buffer
    · exact Or.inr hrefused
    · have hsome : tlvParse buffer ≠ [] := fun hnil => hrefused (tlvParse_nil_iff.1 hnil)
      exact Or.inl (hcomplete (hsame ▸ List.length_pos_iff.2 hsome))
  · intro h
    obtain ⟨hreach, hcondition⟩ := h
    refine ⟨tlvParse buffer, fun depth hdepth => tlvParseAt_reads hdepth hreach, fun hpos => ?_⟩
    apply hcondition.resolve_right
    intro hrefused
    rw [tlvParse_of_refused hrefused] at hpos
    exact absurd hpos (Nat.lt_irrefl _)

/-- A byte behind a record is taken with it. -/
theorem trailingByte_taken : ¬ TlvParsesCompletely [0xC1, 0, 42, 0xFF] := by
  intro h
  obtain ⟨parsed, hparsed, hcomplete⟩ := h
  have hheader : lwm2mDecodeTlv [0xC1, 0, 42, 0xFF] = some (.opaqueBytes, 0, 2, 1) := by decide
  have hrest : lwm2mDecodeTlv (([0xC1, 0, 42, 0xFF] : List UInt8).drop (2 + 1)) = none := rfl
  have hreach : ∀ offset, TlvReaches [0xC1, 0, 42, 0xFF] offset → offset < 2 ^ 31 := by
    intro offset hreached
    have : offset ≤ 4 := tlvReaches_le hreached
    omega
  have hreads := tlvParseAt_reads (Nat.lt_succ_self _) hreach
  rw [hparsed _ (Nat.lt_succ_self _)] at hreads
  have hsome : 0 < parsed.length := by
    apply List.length_pos_iff.2
    rw [Except.ok.inj hreads, tlvParse_eq, tlvParseAll_eq hheader, tlvParseAll_start hrest]
    exact List.cons_ne_nil _ _
  cases hcomplete hsome with
  | record header content rest =>
    rw [hheader] at header
    cases header
    cases rest with
    | record header _ _ =>
      rw [hrest] at header
      cases header

end Wakaama
