import BrilloBoot.Lib.Disk
import Mathlib.Algebra.Group.Nat.Defs

/-!
# Device paths

A device path is a row of nodes in memory, one after the other. A node starts with its type, its
subtype and its length in two bytes, the four of these included; a node of type `0x7F` and subtype
`0xFF` ends the path. Bytes start with at most one node, so that the bytes of a path show its fronts
(`nodeBytes_prefix_iff`). The functions that walk over a path look at memory only (`isEnd`, `next`);
on the bytes of a path they go from node to node, and find its end (`isEnd_offset`, `next_offset`).
Memory is an array of bytes, as a disk is.
-/

namespace DevicePath

/-- A node that does not end the path. -/
@[ext]
structure Node where
  type : Byte
  subType : Byte
  data : List Byte
  length_lt : 4 + data.length < 2 ^ 16
  inside : ¬ (type &&& 0x7F = 0x7F ∧ subType = 0xFF)
deriving DecidableEq

/-- The bytes of a node. -/
def Node.toBytes (node : Node) : List Byte :=
  node.type :: node.subType :: leBytes 2 (BitVec.ofNat 16 (4 + node.data.length)) ++ node.data

/-- The node that ends a path. -/
def endNode : List Byte := [0x7F, 0xFF, 4, 0]

/-- The bytes of nodes in a row. -/
def nodeBytes (nodes : List Node) : List Byte := nodes.flatMap Node.toBytes

/-- The bytes of a path. -/
def toBytes (path : List Node) : List Byte := nodeBytes path ++ endNode

/-- A node is its header and its data. -/
@[simp] theorem Node.length_toBytes (node : Node) :
    node.toBytes.length = 4 + node.data.length := by
  simp only [Node.toBytes, List.length_append, List.length_cons, length_leBytes]

/-! ## Fronts -/

/-- Bytes start with at most one node, which says how long it is. -/
theorem Node.eq_of_prefix {a b : Node} {bytes : List Byte} (ha : a.toBytes <+: bytes)
    (hb : b.toBytes <+: bytes) : a = b := by
  obtain ⟨ra, ha⟩ := ha
  obtain ⟨rb, hb⟩ := hb
  have hboth := ha.trans hb.symm
  simp only [toBytes, List.cons_append, List.append_assoc, List.cons.injEq] at hboth
  obtain ⟨htype, hsubType, hrest⟩ := hboth
  obtain ⟨hbytes, hdata⟩ := List.append_inj hrest (by simp)
  have hword := congrArg BitVec.toNat (leBytes_injective rfl hbytes)
  rw [BitVec.toNat_ofNat, BitVec.toNat_ofNat, Nat.mod_eq_of_lt a.length_lt,
    Nat.mod_eq_of_lt b.length_lt] at hword
  exact Node.ext htype hsubType (List.append_inj hdata (by omega)).1

/-- The bytes of a path, from its first node on. -/
theorem toBytes_cons (node : Node) (path : List Node) :
    toBytes (node :: path) = node.toBytes ++ toBytes path := by
  rw [toBytes, toBytes, nodeBytes, List.flatMap_cons, List.append_assoc, nodeBytes]

/-- The bytes of a path start with those of its fronts, and with those of no other nodes. -/
theorem nodeBytes_prefix_iff {front path : List Node} {rest : List Byte} :
    nodeBytes front <+: toBytes path ++ rest ↔ front <+: path := by
  induction front generalizing path with
  | nil => simp [nodeBytes]
  | cons a front ih =>
    have hfront : nodeBytes (a :: front) = a.toBytes ++ nodeBytes front := rfl
    cases path with
    | nil =>
      refine iff_of_false (fun h => ?_) (by simp)
      -- The end of the path is no node.
      obtain ⟨htype, hsubType⟩ : a.type = 0x7F ∧ a.subType = 0xFF := by
        obtain ⟨tail, htail⟩ := h
        rw [hfront] at htail
        simp only [Node.toBytes, toBytes, nodeBytes, endNode, List.flatMap_nil, List.nil_append,
          List.cons_append, List.cons.injEq] at htail
        exact ⟨htail.1, htail.2.1⟩
      exact a.inside (by rw [htype, hsubType]; decide)
    | cons b path =>
      rw [hfront, toBytes_cons, List.append_assoc]
      constructor
      · intro h
        obtain rfl := Node.eq_of_prefix ((List.prefix_append _ _).trans h) (List.prefix_append _ _)
        rw [List.prefix_append_right_inj, ih] at h
        exact (List.prefix_cons_inj a).mpr h
      · intro h
        obtain ⟨rfl, hrest⟩ := List.cons_prefix_cons.mp h
        exact (List.prefix_append_right_inj _).mpr (ih.mpr hrest)

/-! ## Nodes in memory -/

section

variable (mem : Disk) (p : ℕ)

/-- The node at `p` ends the path. -/
def isEnd : Bool := mem p &&& 0x7F = 0x7F && mem (p + 1) = 0xFF

/-- The length in the node at `p`. -/
def nodeLength : ℕ := (leWord 16 (mem.read (p + 2) 2)).toNat

/-- The node behind the one at `p`. -/
def next : ℕ := p + nodeLength mem p

end

/-! ## Memory that holds a path -/

section

variable {mem : Disk} {p : ℕ}

/-- Memory holds the bytes from `p` on. -/
def Holds (mem : Disk) (p : ℕ) (bytes : List Byte) : Prop := mem.read p bytes.length = bytes

/-- Memory holds two rows of bytes when it holds one behind the other. -/
theorem holds_append_iff {front rest : List Byte} :
    Holds mem p (front ++ rest) ↔ Holds mem p front ∧ Holds mem (p + front.length) rest := by
  unfold Holds
  rw [List.length_append, Disk.read_add]
  constructor
  · intro h
    exact List.append_inj h (mem.length_read _ _)
  · rintro ⟨hfront, hrest⟩
    rw [hfront, hrest]

/-- Memory holds a byte and what is behind it. -/
theorem holds_cons_iff {b : Byte} {rest : List Byte} :
    Holds mem p (b :: rest) ↔ mem p = b ∧ Holds mem (p + 1) rest := by
  have hbyte : Holds mem p [b] ↔ mem p = b := by simp [Holds, Disk.read]
  rw [← List.singleton_append, holds_append_iff, hbyte]
  rfl

/-- The path does not end at a node in memory. -/
theorem isEnd_of_holds {node : Node} (h : Holds mem p node.toBytes) : isEnd mem p = false := by
  rw [Node.toBytes, List.cons_append, List.cons_append, holds_cons_iff, holds_cons_iff] at h
  rw [isEnd, h.1, h.2.1, Bool.eq_false_iff, ne_eq, Bool.and_eq_true, decide_eq_true_iff,
    decide_eq_true_iff]
  exact node.inside

/-- The node behind a node in memory. -/
theorem next_of_holds {node : Node} (h : Holds mem p node.toBytes) :
    next mem p = p + node.toBytes.length := by
  rw [Node.toBytes, List.cons_append, List.cons_append, holds_cons_iff, holds_cons_iff,
    holds_append_iff] at h
  have hlength := h.2.2.1
  rw [Holds, length_leBytes] at hlength
  have hword : leWord 16 (leBytes 2 (BitVec.ofNat 16 (4 + node.data.length)))
      = BitVec.ofNat 16 (4 + node.data.length) :=
    leWord_leBytes (by decide) _
  rw [next, nodeLength, hlength, hword, BitVec.toNat_ofNat, Nat.mod_eq_of_lt node.length_lt,
    Node.length_toBytes]

/-- The path ends at the end node, and the next node would be behind it. -/
theorem end_of_holds (h : Holds mem p endNode) : isEnd mem p = true ∧ next mem p = p + 4 := by
  simp only [endNode, holds_cons_iff] at h
  obtain ⟨htype, hsubType, hlow, hhigh, -⟩ := h
  constructor
  · rw [isEnd, htype, hsubType]
    decide
  · have hread : mem.read (p + 2) 2 = [4, 0] := by
      simp [Disk.read, List.range_succ, hlow, hhigh]
    rw [next, nodeLength, hread]
    rfl

end

/-! ## From node to node -/

section

variable {mem : Disk} {path : List Node} {i : ℕ}

/-- Where node `i` of a path is; the node behind the last one is the end. -/
def offset (path : List Node) (i : ℕ) : ℕ := (nodeBytes (path.take i)).length

/-- The end of a path takes four bytes. -/
theorem length_toBytes (path : List Node) :
    (toBytes path).length = offset path path.length + 4 := by
  rw [toBytes, List.length_append, offset, List.take_length]
  rfl

/-- A node that is not the first is not at the start. -/
theorem offset_ne_zero (hpos : i ≠ 0) (hi : i ≤ path.length) : offset path i ≠ 0 := by
  obtain ⟨j, rfl⟩ := Nat.exists_eq_succ_of_ne_zero hpos
  have hj : j < path.length := hi
  rw [offset, List.take_succ_eq_append_getElem hj, nodeBytes, List.flatMap_append,
    List.length_append, List.flatMap_singleton, Node.length_toBytes]
  omega

/-- The offsets of a front of the path. -/
theorem offset_take {n : ℕ} (hi : i ≤ n) : offset (path.take n) i = offset path i := by
  rw [offset, List.take_take, Nat.min_eq_left hi, offset]

/-- The nodes before a node, and the rest of the path. -/
theorem toBytes_eq_append (path : List Node) (i : ℕ) :
    toBytes path = nodeBytes (path.take i) ++ toBytes (path.drop i) := by
  rw [toBytes, toBytes, ← List.append_assoc, nodeBytes, nodeBytes, nodeBytes,
    ← List.flatMap_append, List.take_append_drop]

/-- Memory from a node on. -/
theorem holds_drop (h : Holds mem 0 (toBytes path)) (i : ℕ) :
    Holds mem (offset path i) (toBytes (path.drop i)) := by
  rw [toBytes_eq_append path i, holds_append_iff, Nat.zero_add] at h
  exact h.2

/-- Memory at a node. -/
theorem holds_node (h : Holds mem 0 (toBytes path)) (hi : i < path.length) :
    Holds mem (offset path i) path[i].toBytes := by
  have hrest := holds_drop h i
  rw [List.drop_eq_getElem_cons hi, toBytes, nodeBytes, List.flatMap_cons, List.append_assoc,
    holds_append_iff] at hrest
  exact hrest.1

/-- Memory at the end of a path. -/
theorem holds_end (h : Holds mem 0 (toBytes path)) :
    Holds mem (offset path path.length) endNode := by
  have hrest := holds_drop h path.length
  rwa [List.drop_length] at hrest

/-- The path ends behind its last node. -/
theorem isEnd_offset (h : Holds mem 0 (toBytes path)) (hi : i ≤ path.length) :
    isEnd mem (offset path i) = decide (i = path.length) := by
  rcases Nat.lt_or_eq_of_le hi with hlt | rfl
  · rw [isEnd_of_holds (holds_node h hlt), decide_eq_false (Nat.ne_of_lt hlt)]
  · rw [(end_of_holds (holds_end h)).1, decide_eq_true rfl]

/-- The walk goes from node to node. -/
theorem next_offset (h : Holds mem 0 (toBytes path)) (hi : i < path.length) :
    next mem (offset path i) = offset path (i + 1) := by
  rw [next_of_holds (holds_node h hi), offset, offset, List.take_succ_eq_append_getElem hi,
    nodeBytes, nodeBytes, List.flatMap_append, List.length_append, List.flatMap_singleton]

/-- The bytes before a node are those of the nodes before it. -/
theorem read_offset (h : Holds mem 0 (toBytes path)) (i : ℕ) :
    mem.read 0 (offset path i) = nodeBytes (path.take i) := by
  rw [toBytes_eq_append path i, holds_append_iff] at h
  exact h.1

end

end DevicePath
