import EntityStore.Component.Shape

set_option autoImplicit false

namespace EntityStore

namespace Document

theorem length_flatten_pieces (size : Nat) (pieces : List (List UInt8))
    (sizes : ∀ piece ∈ pieces, piece.length = size) :
    pieces.flatten.length = size * pieces.length := by
  induction pieces with
  | nil => rfl
  | cons piece rest ih =>
      obtain ⟨here, later⟩ := List.forall_mem_cons.mp sizes
      rw [List.flatten_cons, List.length_append, here, ih later, List.length_cons, Nat.mul_succ,
        Nat.add_comm]

end Document

theorem length_mapM_option {α β : Type} (f : α → Option β) (items : List α) (results : List β)
    (done : items.mapM f = some results) :
    results.length = items.length ∧ ∀ b ∈ results, ∃ a ∈ items, f a = some b := by
  induction items generalizing results with
  | nil =>
      rw [List.mapM_nil] at done
      obtain rfl := Option.some.inj done
      exact ⟨rfl, fun _ member => absurd member List.not_mem_nil⟩
  | cons item rest ih =>
      rw [List.mapM_cons] at done
      obtain ⟨first, here, done⟩ := Option.bind_eq_some_iff.mp done
      obtain ⟨others, later, done⟩ := Option.bind_eq_some_iff.mp done
      obtain rfl := Option.some.inj done
      obtain ⟨length, sources⟩ := ih others later
      refine ⟨by rw [List.length_cons, List.length_cons, length], ?_⟩
      refine List.forall_mem_cons.mpr ⟨⟨item, List.mem_cons_self, here⟩, fun b member => ?_⟩
      obtain ⟨a, inRest, hit⟩ := sources b member
      exact ⟨a, List.mem_cons_of_mem item inRest, hit⟩

mutual

theorem Shape.length_decode (shape : Shape) (document : Document) (bytes : List UInt8)
    (read : shape.decode document = some bytes) : bytes.length = shape.size := by
  cases shape with
  | byte =>
      obtain ⟨n, _, rfl⟩ := Option.map_eq_some_iff.mp read
      exact Bytes.length_ofNat 1 n
  | word =>
      obtain ⟨n, _, rfl⟩ := Option.map_eq_some_iff.mp read
      exact Bytes.length_ofNat 4 n
  | long =>
      obtain ⟨n, _, rfl⟩ := Option.map_eq_some_iff.mp read
      exact Bytes.length_ofNat 8 n
  | real =>
      obtain ⟨x, _, rfl⟩ := Option.map_eq_some_iff.mp read
      exact Bytes.length_ofNat Single.width x.bits.toNat
  | handle =>
      obtain ⟨e, _, rfl⟩ := Option.map_eq_some_iff.mp read
      exact Entity.length_bytes e
  | vector element count =>
      cases document with
      | list items =>
          obtain ⟨_, guarded, read⟩ := Option.bind_eq_some_iff.mp read
          obtain ⟨pieces, parts, read⟩ := Option.bind_eq_some_iff.mp read
          obtain rfl := Option.some.inj read
          obtain ⟨length, sources⟩ := length_mapM_option _ items pieces parts
          have enough : items.length = count := by
            refine Decidable.byContradiction fun other => ?_
            have refused : (guard (items.length = count) : Option Unit) = none := if_neg other
            rw [refused] at guarded
            contradiction
          have sizes : ∀ piece ∈ pieces, piece.length = element.size := by
            intro piece member
            obtain ⟨item, _, hit⟩ := sources piece member
            exact Shape.length_decode element item piece hit
          rw [Document.length_flatten_pieces element.size pieces sizes, length, enough, Shape.size]
      | _ => cases read
  | record fields =>
      cases document with
      | table entries => exact Fields.length_decodeTable fields entries bytes read
      | list items => exact Fields.length_decodeList fields items bytes read
      | _ => cases read

theorem Fields.length_decodeTable (fields : Fields) (entries : List (String × Document))
    (bytes : List UInt8) (read : fields.decodeTable entries = some bytes) :
    bytes.length = fields.size := by
  cases fields with
  | nil =>
      obtain rfl := Option.some.inj read
      rfl
  | cons name shape rest =>
      rw [Fields.decodeTable] at read
      obtain ⟨value, _, read⟩ := Option.bind_eq_some_iff.mp read
      obtain ⟨first, here, read⟩ := Option.bind_eq_some_iff.mp read
      obtain ⟨others, later, read⟩ := Option.bind_eq_some_iff.mp read
      obtain rfl := Option.some.inj read
      rw [List.length_append, Shape.length_decode shape value first here,
        Fields.length_decodeTable rest entries others later, Fields.size]

theorem Fields.length_decodeList (fields : Fields) (items : List Document) (bytes : List UInt8)
    (read : fields.decodeList items = some bytes) : bytes.length = fields.size := by
  cases fields with
  | nil =>
      cases items with
      | nil =>
          obtain rfl := Option.some.inj read
          rfl
      | cons item more => simp [Fields.decodeList] at read
  | cons name shape rest =>
      cases items with
      | nil => simp [Fields.decodeList] at read
      | cons item more =>
          rw [Fields.decodeList] at read
          obtain ⟨first, here, read⟩ := Option.bind_eq_some_iff.mp read
          obtain ⟨others, later, read⟩ := Option.bind_eq_some_iff.mp read
          obtain rfl := Option.some.inj read
          rw [List.length_append, Shape.length_decode shape item first here,
            Fields.length_decodeList rest more others later, Fields.size]

end

end EntityStore
