import WifiOffload.Kernel.Netfilter
import WifiOffload.Library.Chunks

/-!
# Rules in memory

An `ipt_entry` with its matches and its target as they lie in memory on the target, a 32-bit host
that aligns them to 8 bytes, and the rule that `libiptc` and the kernel read out of one.
-/

namespace WifiOffload

/-- `XT_ALIGN`, where `alignof(_xt_align)` is 8. -/
def xtAlign (n : Nat) : Nat := (n + 7) / 8 * 8

structure IptIp where
  src : UInt32 := 0
  dst : UInt32 := 0
  smsk : UInt32 := 0
  dmsk : UInt32 := 0
  iniface : CharArray ifNamSiz := CharArray.zero ifNamSiz
  outiface : CharArray ifNamSiz := CharArray.zero ifNamSiz
  inifaceMask : CharArray ifNamSiz := CharArray.zero ifNamSiz
  outifaceMask : CharArray ifNamSiz := CharArray.zero ifNamSiz
  proto : UInt16 := 0
  flags : UInt8 := 0
  invflags : UInt8 := 0
  deriving DecidableEq

structure IptEntry where
  ip : IptIp := {}
  nfcache : UInt32 := 0
  targetOffset : UInt16
  nextOffset : UInt16
  comefrom : UInt32 := 0
  pcnt : UInt64 := 0
  bcnt : UInt64 := 0
  deriving DecidableEq

/-- The user part of an `xt_entry_match` or `xt_entry_target`; a name has 29 bytes. -/
structure XtUser where
  size : UInt16
  name : CharArray 29
  revision : UInt8 := 0
  deriving DecidableEq

/-- `xt_cgroup_info_v2`: the classid is in a union with a path of 512 bytes, and a pointer that
is aligned to 8 bytes follows. -/
structure XtCgroupInfoV2 where
  hasPath : UInt8 := 0
  hasClassid : UInt8 := 0
  invertPath : UInt8 := 0
  invertClassid : UInt8 := 0
  classid : UInt32
  deriving DecidableEq

structure XtMarkTginfo2 where
  mark : UInt32
  mask : UInt32
  deriving DecidableEq

structure XtMarkMtinfo1 where
  mark : UInt32
  mask : UInt32
  invert : UInt8 := 0
  deriving DecidableEq

/-! ## Layouts -/

open Bytes (uint8_ofNat_mod uint16_ofNat_mod uint32_ofNat_mod uint64_ofNat_mod)

/-- An array at the front, and the bytes behind it. -/
def readArray (n : Nat) (bs : Bytes) : CharArray n × Bytes := (CharArray.ofBytes n bs, bs.drop n)

@[simp] theorem readArray_append {n : Nat} (a : CharArray n) (rest : Bytes) :
    readArray n (a.val ++ rest) = (a, rest) := by
  rw [readArray, CharArray.ofBytes_append, List.drop_left' a.2]

namespace IptIp

def encode (ip : IptIp) : Bytes :=
  Bytes.le 4 ip.src.toNat ++ (Bytes.le 4 ip.dst.toNat ++ (Bytes.le 4 ip.smsk.toNat ++
    (Bytes.le 4 ip.dmsk.toNat ++ (ip.iniface.val ++ (ip.outiface.val ++ (ip.inifaceMask.val ++
      (ip.outifaceMask.val ++ (Bytes.le 2 ip.proto.toNat ++ (Bytes.le 1 ip.flags.toNat ++
        Bytes.le 1 ip.invflags.toNat)))))))))

def decode (bs : Bytes) : IptIp × Bytes :=
  let (src, bs) := Bytes.readLE 4 bs
  let (dst, bs) := Bytes.readLE 4 bs
  let (smsk, bs) := Bytes.readLE 4 bs
  let (dmsk, bs) := Bytes.readLE 4 bs
  let (iniface, bs) := readArray ifNamSiz bs
  let (outiface, bs) := readArray ifNamSiz bs
  let (inifaceMask, bs) := readArray ifNamSiz bs
  let (outifaceMask, bs) := readArray ifNamSiz bs
  let (proto, bs) := Bytes.readLE 2 bs
  let (flags, bs) := Bytes.readLE 1 bs
  let (invflags, bs) := Bytes.readLE 1 bs
  ({ src := .ofNat src, dst := .ofNat dst, smsk := .ofNat smsk, dmsk := .ofNat dmsk, iniface
     outiface, inifaceMask, outifaceMask, proto := .ofNat proto, flags := .ofNat flags
     invflags := .ofNat invflags }, bs)

@[simp] theorem decode_encode (ip : IptIp) (rest : Bytes) :
    decode (ip.encode ++ rest) = (ip, rest) := by
  simp only [decode, encode, List.append_assoc, Bytes.readLE_append, readArray_append,
    uint8_ofNat_mod, uint16_ofNat_mod, uint32_ofNat_mod]

@[simp] theorem length_encode (ip : IptIp) : ip.encode.length = 84 := by
  simp [encode, ip.iniface.2, ip.outiface.2, ip.inifaceMask.2, ip.outifaceMask.2, ifNamSiz]

end IptIp

namespace IptEntry

/-- `sizeof(ipt_entry)`. -/
def sizeof : Nat := 112

def encode (e : IptEntry) : Bytes :=
  e.ip.encode ++ (Bytes.le 4 e.nfcache.toNat ++ (Bytes.le 2 e.targetOffset.toNat ++
    (Bytes.le 2 e.nextOffset.toNat ++ (Bytes.le 4 e.comefrom.toNat ++
      (Bytes.le 8 e.pcnt.toNat ++ Bytes.le 8 e.bcnt.toNat)))))

def decode (bs : Bytes) : IptEntry :=
  let (ip, bs) := IptIp.decode bs
  let (nfcache, bs) := Bytes.readLE 4 bs
  let (targetOffset, bs) := Bytes.readLE 2 bs
  let (nextOffset, bs) := Bytes.readLE 2 bs
  let (comefrom, bs) := Bytes.readLE 4 bs
  let (pcnt, bs) := Bytes.readLE 8 bs
  let (bcnt, _) := Bytes.readLE 8 bs
  { ip, nfcache := .ofNat nfcache, targetOffset := .ofNat targetOffset
    nextOffset := .ofNat nextOffset, comefrom := .ofNat comefrom, pcnt := .ofNat pcnt
    bcnt := .ofNat bcnt }

@[simp] theorem decode_encode (e : IptEntry) (rest : Bytes) : decode (e.encode ++ rest) = e := by
  simp only [decode, encode, List.append_assoc, IptIp.decode_encode, Bytes.readLE_append,
    uint16_ofNat_mod, uint32_ofNat_mod, uint64_ofNat_mod]

@[simp] theorem length_encode (e : IptEntry) : e.encode.length = sizeof := by
  simp [encode, sizeof]

end IptEntry

namespace XtUser

def sizeof : Nat := 32

def encode (u : XtUser) : Bytes :=
  Bytes.le 2 u.size.toNat ++ (u.name.val ++ Bytes.le 1 u.revision.toNat)

/-- The user part, and the data behind it. -/
def decode (bs : Bytes) : XtUser × Bytes :=
  let (size, bs) := Bytes.readLE 2 bs
  let (name, bs) := readArray 29 bs
  let (revision, bs) := Bytes.readLE 1 bs
  ({ size := .ofNat size, name, revision := .ofNat revision }, bs)

@[simp] theorem decode_encode (u : XtUser) (rest : Bytes) :
    decode (u.encode ++ rest) = (u, rest) := by
  simp only [decode, encode, List.append_assoc, Bytes.readLE_append, readArray_append,
    uint8_ofNat_mod, uint16_ofNat_mod]

@[simp] theorem length_encode (u : XtUser) : u.encode.length = sizeof := by
  simp [encode, u.name.2, sizeof]

end XtUser

namespace XtCgroupInfoV2

def sizeof : Nat := 528

def encode (i : XtCgroupInfoV2) : Bytes :=
  Bytes.padTo sizeof (Bytes.le 1 i.hasPath.toNat ++ (Bytes.le 1 i.hasClassid.toNat ++
    (Bytes.le 1 i.invertPath.toNat ++ (Bytes.le 1 i.invertClassid.toNat ++
      Bytes.le 4 i.classid.toNat))))

def decode (bs : Bytes) : XtCgroupInfoV2 :=
  let (hasPath, bs) := Bytes.readLE 1 bs
  let (hasClassid, bs) := Bytes.readLE 1 bs
  let (invertPath, bs) := Bytes.readLE 1 bs
  let (invertClassid, bs) := Bytes.readLE 1 bs
  let (classid, _) := Bytes.readLE 4 bs
  { hasPath := .ofNat hasPath, hasClassid := .ofNat hasClassid, invertPath := .ofNat invertPath
    invertClassid := .ofNat invertClassid, classid := .ofNat classid }

@[simp] theorem decode_encode (i : XtCgroupInfoV2) (rest : Bytes) :
    decode (i.encode ++ rest) = i := by
  rw [encode, Bytes.padTo_of_le (by simp [sizeof])]
  simp only [decode, List.append_assoc, Bytes.readLE_append, uint8_ofNat_mod, uint32_ofNat_mod]

@[simp] theorem length_encode (i : XtCgroupInfoV2) : i.encode.length = sizeof :=
  Bytes.length_padTo _ _

end XtCgroupInfoV2

namespace XtMarkTginfo2

def sizeof : Nat := 8

def encode (i : XtMarkTginfo2) : Bytes := Bytes.le 4 i.mark.toNat ++ Bytes.le 4 i.mask.toNat

def decode (bs : Bytes) : XtMarkTginfo2 :=
  let (mark, bs) := Bytes.readLE 4 bs
  let (mask, _) := Bytes.readLE 4 bs
  { mark := .ofNat mark, mask := .ofNat mask }

@[simp] theorem decode_encode (i : XtMarkTginfo2) (rest : Bytes) :
    decode (i.encode ++ rest) = i := by
  simp only [decode, encode, List.append_assoc, Bytes.readLE_append, uint32_ofNat_mod]

@[simp] theorem length_encode (i : XtMarkTginfo2) : i.encode.length = sizeof := by
  simp [encode, sizeof]

end XtMarkTginfo2

namespace XtMarkMtinfo1

def sizeof : Nat := 12

def encode (i : XtMarkMtinfo1) : Bytes :=
  Bytes.padTo sizeof (Bytes.le 4 i.mark.toNat ++ (Bytes.le 4 i.mask.toNat ++
    Bytes.le 1 i.invert.toNat))

def decode (bs : Bytes) : XtMarkMtinfo1 :=
  let (mark, bs) := Bytes.readLE 4 bs
  let (mask, bs) := Bytes.readLE 4 bs
  let (invert, _) := Bytes.readLE 1 bs
  { mark := .ofNat mark, mask := .ofNat mask, invert := .ofNat invert }

@[simp] theorem decode_encode (i : XtMarkMtinfo1) (rest : Bytes) :
    decode (i.encode ++ rest) = i := by
  rw [encode, Bytes.padTo_of_le (by simp [sizeof])]
  simp only [decode, List.append_assoc, Bytes.readLE_append, uint8_ofNat_mod, uint32_ofNat_mod]

@[simp] theorem length_encode (i : XtMarkMtinfo1) : i.encode.length = sizeof :=
  Bytes.length_padTo _ _

end XtMarkMtinfo1

/-! ## What is read -/

/-- Matches lie behind each other, each with its size at the front of its user part. -/
def xtFormat : ChunkFormat where
  header := XtUser.sizeof
  align := 1
  lengthOf bs := (Bytes.readLE 2 bs).1
  header_pos := by decide
  align_pos := by decide
  lengthOf_take bs := by simp [Bytes.readLE, List.take_take, XtUser.sizeof]

/-- The match in a chunk: what the comments on `buildMarkEntry` and `buildDropEntry` say that the
`cgroup` and `mark` extensions of their revisions stand for. -/
def matchOf (c : Bytes) : Match :=
  let (user, data) := XtUser.decode c
  let name := user.name.toString
  if name = Bytes.ascii "cgroup" ∧ user.revision = 2 ∧
      c.length = xtAlign (XtUser.sizeof + XtCgroupInfoV2.sizeof) then
    let info := XtCgroupInfoV2.decode data
    if info = { hasClassid := 1, classid := info.classid } then .cgroup info.classid
    else .other name
  else if name = Bytes.ascii "mark" ∧ user.revision = 1 ∧
      c.length = xtAlign (XtUser.sizeof + XtMarkMtinfo1.sizeof) then
    let info := XtMarkMtinfo1.decode data
    .mark info.mark info.mask (info.invert ≠ 0)
  else .other name

/-- The size of an `xt_standard_target`, which has a verdict behind the user part. -/
def standardSize : Nat := xtAlign (XtUser.sizeof + 4)

/-- The target of an entry by its name, as the comment in `buildDropEntry` has it of
`iptcc_map_target`: the verdicts first (an empty name falls through), then the chains of the table,
whose verdict is resolved at commit time, then the extensions. -/
def targetOf (isChain : Bytes → Bool) (t : Bytes) : Target :=
  let (user, data) := XtUser.decode t
  let name := user.name.toString
  if name = Bytes.ascii "DROP" ∧ t.length = standardSize then .drop
  else if name ∈ [[], Bytes.ascii "DROP", Bytes.ascii "ACCEPT", Bytes.ascii "QUEUE",
      Bytes.ascii "RETURN"] then .other name
  else if isChain name ∧ t.length = standardSize then .jump name
  else if name = Bytes.ascii "MARK" ∧ user.revision = 2 ∧
      t.length = xtAlign (XtUser.sizeof + XtMarkTginfo2.sizeof) then
    let info := XtMarkTginfo2.decode data
    .mark info.mark info.mask
  else .other name

/-- The matches fill their space in aligned chunks, and so does the target. -/
def Fits (elems target : Bytes) : Prop :=
  (xtFormat.chunks elems).flatten = elems ∧ (∀ c ∈ xtFormat.chunks elems, c.length % 8 = 0) ∧
    xtFormat.Starts target ∧ xtFormat.lengthOf target = target.length

instance (elems target : Bytes) : Decidable (Fits elems target) :=
  inferInstanceAs (Decidable (_ ∧ _ ∧ _ ∧ _))

/-- The rule in a buffer, when the buffer is well formed, has at most one match and looks at no
field of a packet but its device: the command lines in the comments of the three builders, read
back from the layouts of the kernel's headers. -/
def readEntry (isChain : Bytes → Bool) (buf : Bytes) : Option Entry :=
  let e := IptEntry.decode buf
  let elems := (buf.take e.targetOffset.toNat).drop IptEntry.sizeof
  let target := buf.drop e.targetOffset.toNat
  if IptEntry.sizeof ≤ e.targetOffset.toNat ∧ e.nextOffset.toNat = buf.length ∧ Fits elems target ∧
      e.ip = { outiface := e.ip.outiface, outifaceMask := e.ip.outifaceMask } then
    match xtFormat.chunks elems with
    | [] => some { outiface := e.ip.outiface, outifaceMask := e.ip.outifaceMask
                   target := targetOf isChain target }
    | [c] => some { outiface := e.ip.outiface, outifaceMask := e.ip.outifaceMask
                    matching := some (matchOf c), target := targetOf isChain target }
    | _ => none
  else none

/-- An entry in front of its matches and its target is read when its offsets fit them. -/
theorem readEntry_append {isChain : Bytes → Bool} {e : IptEntry} {elems target : Bytes}
    (hfits : Fits elems target)
    (htarget : e.targetOffset.toNat = IptEntry.sizeof + elems.length)
    (hnext : e.nextOffset.toNat = IptEntry.sizeof + elems.length + target.length)
    (hip : e.ip = { outiface := e.ip.outiface, outifaceMask := e.ip.outifaceMask }) :
    readEntry isChain (e.encode ++ (elems ++ target)) =
      match xtFormat.chunks elems with
      | [] => some { outiface := e.ip.outiface, outifaceMask := e.ip.outifaceMask
                     target := targetOf isChain target }
      | [c] => some { outiface := e.ip.outiface, outifaceMask := e.ip.outifaceMask
                      matching := some (matchOf c), target := targetOf isChain target }
      | _ => none := by
  have hsplit : e.encode ++ (elems ++ target) = (e.encode ++ elems) ++ target := by simp
  have hlength : (e.encode ++ elems).length = e.targetOffset.toNat := by
    rw [List.length_append, IptEntry.length_encode, htarget]
  have helems : ((e.encode ++ (elems ++ target)).take e.targetOffset.toNat).drop IptEntry.sizeof =
      elems := by
    rw [hsplit, List.take_left' hlength, List.drop_left' e.length_encode]
  have hrest : (e.encode ++ (elems ++ target)).drop e.targetOffset.toNat = target := by
    rw [hsplit, List.drop_left' hlength]
  have hend : e.nextOffset.toNat = (e.encode ++ (elems ++ target)).length := by
    rw [hsplit, List.length_append, hlength, hnext, htarget]
  simp only [readEntry, IptEntry.decode_encode, helems, hrest]
  rw [if_pos ⟨by omega, hend, hfits, hip⟩]

/-! ## Matches and targets that are written -/

/-- The user part at the front of so many bytes, and the data of the extension behind it. -/
def xtElem (size : Nat) (name : Bytes) (revision : UInt8) (data : Bytes) : Bytes :=
  let user : XtUser := { size := .ofNat size, name := .strncpy 29 name, revision }
  Bytes.padTo size (user.encode ++ data)

section

variable {size : Nat} {name data elems target : Bytes} {revision : UInt8}
variable {isChain : Bytes → Bool} {e : IptEntry}

@[simp] theorem length_xtElem : (xtElem size name revision data).length = size :=
  Bytes.length_padTo _ _

theorem xtElem_eq (h : XtUser.sizeof ≤ size) :
    xtElem size name revision data =
      XtUser.encode { size := .ofNat size, name := .strncpy 29 name, revision } ++
        Bytes.padTo (size - XtUser.sizeof) data := by
  rw [xtElem, Bytes.padTo_append (by rwa [XtUser.length_encode]), XtUser.length_encode]

theorem decode_xtElem (h : XtUser.sizeof ≤ size) :
    XtUser.decode (xtElem size name revision data) =
      ({ size := .ofNat size, name := .strncpy 29 name, revision },
        Bytes.padTo (size - XtUser.sizeof) data) := by
  rw [xtElem_eq h, XtUser.decode_encode]

theorem chunk_xtElem (h : XtUser.sizeof ≤ size) (hlt : size < 65536) :
    xtFormat.Chunk (xtElem size name revision data) := by
  refine ⟨by rwa [length_xtElem], ?_⟩
  have hword : (UInt16.ofNat size).toNat = size := by
    rw [UInt16.toNat_ofNat']
    omega
  have hmod : size % 256 ^ 2 = size := Nat.mod_eq_of_lt hlt
  rw [length_xtElem, xtElem_eq h]
  simp only [xtFormat, XtUser.encode, List.append_assoc, Bytes.readLE_append, hword, hmod]

theorem fits_nil (ht : xtFormat.Chunk target) : Fits [] target := by
  refine ⟨rfl, ?_, ht.starts_self, ht.lengthOf_eq⟩
  simp

theorem fits_chunk (hc : xtFormat.Chunk elems) (halign : elems.length % 8 = 0)
    (ht : xtFormat.Chunk target) : Fits elems target := by
  refine ⟨?_, ?_, ht.starts_self, ht.lengthOf_eq⟩
  · rw [hc.chunks_self, List.flatten_singleton]
  · simpa [hc.chunks_self] using halign

/-- An entry without a match. -/
theorem readEntry_target (ht : xtFormat.Chunk target)
    (htarget : e.targetOffset.toNat = IptEntry.sizeof)
    (hnext : e.nextOffset.toNat = IptEntry.sizeof + target.length)
    (hip : e.ip = { outiface := e.ip.outiface, outifaceMask := e.ip.outifaceMask }) :
    readEntry isChain (e.encode ++ target) =
      some { outiface := e.ip.outiface, outifaceMask := e.ip.outifaceMask
             target := targetOf isChain target } := by
  have hread := @readEntry_append isChain e [] target (fits_nil ht) (by simpa using htarget)
    (by simpa using hnext) hip
  rwa [List.nil_append, ChunkFormat.chunks_nil] at hread

/-- An entry with one match. -/
theorem readEntry_match (hc : xtFormat.Chunk elems) (halign : elems.length % 8 = 0)
    (ht : xtFormat.Chunk target)
    (htarget : e.targetOffset.toNat = IptEntry.sizeof + elems.length)
    (hnext : e.nextOffset.toNat = IptEntry.sizeof + elems.length + target.length)
    (hip : e.ip = { outiface := e.ip.outiface, outifaceMask := e.ip.outifaceMask }) :
    readEntry isChain (e.encode ++ (elems ++ target)) =
      some { outiface := e.ip.outiface, outifaceMask := e.ip.outifaceMask
             matching := some (matchOf elems), target := targetOf isChain target } := by
  rw [readEntry_append (fits_chunk hc halign ht) htarget hnext hip, hc.chunks_self]

end

end WifiOffload
