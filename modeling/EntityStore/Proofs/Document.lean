import EntityStore.Proofs.Shape
import EntityStore.Proofs.Single

set_option autoImplicit false

namespace EntityStore

namespace Fields

def names (fields : Fields) : List String := fields.toList.map Prod.fst

end Fields

mutual

def Shape.distinct : Shape → Bool
  | .vector element _ => element.distinct
  | .record fields => fields.distinct
  | _ => true

def Fields.distinct : Fields → Bool
  | .nil => true
  | .cons name shape rest => !rest.names.contains name && shape.distinct && rest.distinct

end

mutual

-- Whether no long in a value is beyond the signed 64-bit range.
def Shape.inRange : Shape → List UInt8 → Bool
  | .long, bytes => decide (Bytes.toNat bytes < 0x8000000000000000)
  | .vector element count, bytes => (Bytes.pieces element.size count bytes).all fun piece => element.inRange piece
  | .record fields, bytes => fields.inRange bytes
  | _, _ => true

def Fields.inRange : Fields → List UInt8 → Bool
  | .nil, _ => true
  | .cons _ shape rest, bytes => shape.inRange (bytes.take shape.size) && rest.inRange (bytes.drop shape.size)

end

mutual

def Shape.short : Shape → Bool
  | .long => false
  | .vector element _ => element.short
  | .record fields => fields.short
  | _ => true

def Fields.short : Fields → Bool
  | .nil => true
  | .cons _ shape rest => shape.short && rest.short

end

mutual

def Shape.numeric : Shape → List UInt8 → Bool
  | .real, bytes => !(Single.ofBytes bytes).isNaN
  | .vector element count, bytes => (Bytes.pieces element.size count bytes).all fun piece => element.numeric piece
  | .record fields, bytes => fields.numeric bytes
  | _, _ => true

def Fields.numeric : Fields → List UInt8 → Bool
  | .nil, _ => true
  | .cons _ shape rest, bytes => shape.numeric (bytes.take shape.size) && rest.numeric (bytes.drop shape.size)

end

theorem mapM_option_ok {α β : Type} (f : α → Option β) (items : List α)
    (each : ∀ a ∈ items, ∃ b, f a = some b) : ∃ results, items.mapM f = some results := by
  induction items with
  | nil => exact ⟨[], rfl⟩
  | cons a rest ih =>
      obtain ⟨here, later⟩ := List.forall_mem_cons.mp each
      obtain ⟨b, first⟩ := here
      obtain ⟨results, others⟩ := ih later
      exact ⟨b :: results, by rw [List.mapM_cons, first, others]; rfl⟩

theorem mapM_option_back {α β : Type} (f : α → Option β) (g : β → Option α) (items : List α)
    (results : List β) (done : items.mapM f = some results)
    (back : ∀ a ∈ items, ∀ b, f a = some b → g b = some a) : results.mapM g = some items := by
  induction items generalizing results with
  | nil =>
      rw [List.mapM_nil] at done
      obtain rfl := Option.some.inj done
      rfl
  | cons a rest ih =>
      rw [List.mapM_cons] at done
      obtain ⟨first, here, done⟩ := Option.bind_eq_some_iff.mp done
      obtain ⟨others, later, done⟩ := Option.bind_eq_some_iff.mp done
      obtain rfl := Option.some.inj done
      obtain ⟨now, after⟩ := List.forall_mem_cons.mp back
      rw [List.mapM_cons, now first here, ih others later after]
      rfl

theorem Bytes.length_of_piece (size count : Nat) (bytes : List UInt8) (length : bytes.length = size * count) :
    ∀ piece ∈ pieces size count bytes, piece.length = size := by
  induction count generalizing bytes with
  | zero => exact fun piece member => absurd member List.not_mem_nil
  | succ count ih =>
      rw [Nat.mul_succ] at length
      refine List.forall_mem_cons.mpr ⟨by rw [List.length_take]; omega, ih _ ?_⟩
      rw [List.length_drop]
      omega

namespace Document

theorem lookup_member {entries : List (String × Document)} (distinct : (entries.map Prod.fst).Nodup)
    {name : String} {value : Document} (member : (name, value) ∈ entries) : lookup? name entries = some value := by
  induction entries with
  | nil => exact absurd member List.not_mem_nil
  | cons entry rest ih =>
      obtain ⟨key, first⟩ := entry
      obtain ⟨fresh, others⟩ := List.nodup_cons.mp distinct
      rw [lookup?]
      rcases List.mem_cons.mp member with here | later
      · obtain ⟨rfl, rfl⟩ := Prod.mk.inj here
        rw [if_pos rfl]
      · have other : key ≠ name := fun same => fresh (List.mem_map.mpr ⟨_, later, same.symm⟩)
        rw [if_neg other]
        exact ih others later

theorem unsigned_of_nat (width n : Nat) (bound : n < Bytes.limit width) :
    (Document.integer n).unsigned? width = some n := by
  have inside : 0 ≤ (n : Int) ∧ (n : Int) < Bytes.limit width := by omega
  rw [unsigned?, if_pos inside, Int.toNat_natCast]

theorem unsigned_bytes (bytes : List UInt8) {width : Nat} (length : bytes.length = width) :
    ((Document.integer (Bytes.toNat bytes)).unsigned? width).map (Bytes.ofNat width) = some bytes := by
  subst length
  rw [unsigned_of_nat _ _ (Bytes.toNat_lt bytes), Option.map_some, Bytes.ofNat_toNat]

theorem entity_of_table (index generation : Document) :
    (Document.table [("index", index), ("generation", generation)]).entity? = entityOf? index generation := by
  have apart : ¬ "index" = "generation" := by decide
  have first : lookup? "index" [("index", index), ("generation", generation)] = some index := if_pos rfl
  have second : lookup? "generation" [("index", index), ("generation", generation)] = some generation :=
    (if_neg apart).trans (if_pos rfl)
  rw [entity?, first, second]
  rfl

theorem entity_of_entity (e : Entity) : (Document.ofEntity e).entity? = some e := by
  have limit : Bytes.limit 4 = 2 ^ 32 := by decide
  have index := unsigned_of_nat 4 e.index.toNat (by rw [limit]; exact e.index.toNat_lt)
  have generation := unsigned_of_nat 4 e.generation.toNat (by rw [limit]; exact e.generation.toNat_lt)
  rw [ofEntity, entity_of_table, entityOf?, index, generation]
  simp only [Option.bind_eq_bind, Option.bind_some, UInt32.ofNat_toNat, Option.pure_def]

end Document

theorem Single.bytes_of_bytes (bytes : List UInt8) (length : bytes.length = width) :
    (ofBytes bytes).bytes = bytes := by
  have bound := Bytes.toNat_lt bytes
  have limit : Bytes.limit width = 2 ^ 32 := by decide
  rw [length, limit] at bound
  rw [Single.bytes, ofBytes, UInt32.toNat_ofNat', Nat.mod_eq_of_lt bound, ← length, Bytes.ofNat_toNat]

theorem Entity.bytes_of_bytes (bytes : List UInt8) (length : bytes.length = width) :
    (ofBytes bytes).bytes = bytes := by
  have bound := Bytes.toNat_lt bytes
  rw [length] at bound
  rw [Entity.bytes, ofBytes, bits_ofBits, Nat.mod_eq_of_lt bound, ← length, Bytes.ofNat_toNat]

mutual

theorem Shape.in_range_of_short (shape : Shape) (short : shape.short = true) (bytes : List UInt8) :
    shape.inRange bytes = true := by
  cases shape with
  | byte | word | real | handle => rfl
  | long => contradiction
  | vector element count =>
      exact List.all_eq_true.mpr fun piece _ => Shape.in_range_of_short element short piece
  | record fields => exact Fields.in_range_of_short fields short bytes

theorem Fields.in_range_of_short (fields : Fields) (short : fields.short = true) (bytes : List UInt8) :
    fields.inRange bytes = true := by
  cases fields with
  | nil => rfl
  | cons name shape rest =>
      obtain ⟨here, later⟩ := Bool.and_eq_true_iff.mp short
      exact Bool.and_eq_true_iff.mpr ⟨Shape.in_range_of_short shape here _, Fields.in_range_of_short rest later _⟩

end

mutual

theorem Shape.encode_ok (shape : Shape) (bytes : List UInt8) (range : shape.inRange bytes = true) :
    ∃ document, shape.encode bytes = some document := by
  cases shape with
  | byte | word | real | handle => exact ⟨_, rfl⟩
  | long => exact ⟨_, if_pos (of_decide_eq_true range)⟩
  | vector element count =>
      obtain ⟨items, encoded⟩ := mapM_option_ok (fun piece => element.encode piece)
        (Bytes.pieces element.size count bytes) fun piece member =>
          Shape.encode_ok element piece (List.all_eq_true.mp range piece member)
      exact ⟨.list items, by rw [Shape.encode, encoded]; rfl⟩
  | record fields =>
      obtain ⟨entries, encoded⟩ := Fields.encode_ok fields bytes range
      exact ⟨.table entries, by rw [Shape.encode, encoded]; rfl⟩

theorem Fields.encode_ok (fields : Fields) (bytes : List UInt8) (range : fields.inRange bytes = true) :
    ∃ entries, fields.encode bytes = some entries := by
  cases fields with
  | nil => exact ⟨[], rfl⟩
  | cons name shape rest =>
      obtain ⟨here, later⟩ := Bool.and_eq_true_iff.mp range
      obtain ⟨value, first⟩ := Shape.encode_ok shape (bytes.take shape.size) here
      obtain ⟨entries, others⟩ := Fields.encode_ok rest (bytes.drop shape.size) later
      exact ⟨(name, value) :: entries, by rw [Fields.encode, first, others]; rfl⟩

end

theorem Fields.encode_names (fields : Fields) (bytes : List UInt8) (entries : List (String × Document))
    (encoded : fields.encode bytes = some entries) : entries.map Prod.fst = fields.names := by
  induction entries generalizing fields bytes with
  | nil =>
      cases fields with
      | nil => rfl
      | cons name shape rest =>
          obtain ⟨_, _, encoded⟩ := Option.bind_eq_some_iff.mp encoded
          obtain ⟨_, _, encoded⟩ := Option.bind_eq_some_iff.mp encoded
          simp at encoded
  | cons entry others ih =>
      cases fields with
      | nil => simp [Fields.encode] at encoded
      | cons name shape rest =>
          obtain ⟨value, _, encoded⟩ := Option.bind_eq_some_iff.mp encoded
          obtain ⟨later, found, encoded⟩ := Option.bind_eq_some_iff.mp encoded
          obtain ⟨rfl, rfl⟩ := List.cons.inj (Option.some.inj encoded)
          rw [List.map_cons, ih rest _ found]
          rfl

theorem Fields.nodup_names (fields : Fields) (distinct : fields.distinct = true) : fields.names.Nodup := by
  match fields with
  | .nil => exact List.nodup_nil
  | .cons name shape rest =>
      obtain ⟨apart, others⟩ := Bool.and_eq_true_iff.mp distinct
      obtain ⟨unseen, _⟩ := Bool.and_eq_true_iff.mp apart
      have fresh : name ∉ rest.names := by simpa using unseen
      exact List.nodup_cons.mpr ⟨fresh, Fields.nodup_names rest others⟩

mutual

theorem Shape.decode_encode (shape : Shape) (bytes : List UInt8) (document : Document)
    (distinct : shape.distinct = true) (length : bytes.length = shape.size)
    (numeric : shape.numeric bytes = true) (encoded : shape.encode bytes = some document) :
    shape.decode document = some bytes := by
  cases shape with
  | byte | word =>
      obtain rfl := Option.some.inj encoded
      exact Document.unsigned_bytes bytes length
  | long =>
      obtain ⟨_, same⟩ := Option.ite_none_right_eq_some.mp encoded
      obtain rfl := Option.some.inj same
      exact Document.unsigned_bytes bytes length
  | real =>
      obtain rfl := Option.some.inj encoded
      have number : (Single.ofBytes bytes).isNaN = false := by simpa [Shape.numeric] using numeric
      show (Document.single? _).map Single.bytes = some bytes
      simp only [Document.single?, Option.map_some, Single.narrow_widen _ number,
        Single.bytes_of_bytes bytes length]
  | handle =>
      obtain rfl := Option.some.inj encoded
      show (Document.entity? _).map Entity.bytes = some bytes
      simp only [Document.entity_of_entity, Option.map_some, Entity.bytes_of_bytes bytes length]
  | vector element count =>
      obtain ⟨items, parts, encoded⟩ := Option.bind_eq_some_iff.mp encoded
      obtain rfl := Option.some.inj encoded
      have enough : items.length = count := by
        rw [(length_mapM_option _ _ _ parts).1, Bytes.length_pieces]
      have sizes := Bytes.length_of_piece element.size count bytes length
      have back := mapM_option_back _ (fun item => element.decode item) _ _ parts fun piece member item hit =>
        Shape.decode_encode element piece item distinct (sizes piece member)
          (List.all_eq_true.mp numeric piece member) hit
      have whole := Bytes.flatten_pieces element.size count bytes length
      have passed : (guard (items.length = count) : Option Unit) = some () := if_pos enough
      show (do
        guard (items.length = count)
        let pieces ← items.mapM fun item => element.decode item
        return pieces.flatten : Option (List UInt8)) = some bytes
      rw [passed, back]
      exact congrArg some whole
  | record fields =>
      obtain ⟨entries, parts, encoded⟩ := Option.bind_eq_some_iff.mp encoded
      obtain rfl := Option.some.inj encoded
      have names := Fields.encode_names fields bytes entries parts
      refine Fields.decode_encode fields bytes entries entries distinct length numeric parts ?_
      exact fun entry member => Document.lookup_member (names ▸ Fields.nodup_names fields distinct) member

theorem Fields.decode_encode (fields : Fields) (bytes : List UInt8) (entries table : List (String × Document))
    (distinct : fields.distinct = true) (length : bytes.length = fields.size)
    (numeric : fields.numeric bytes = true) (encoded : fields.encode bytes = some entries)
    (finds : ∀ entry ∈ entries, Document.lookup? entry.1 table = some entry.2) :
    fields.decodeTable table = some bytes := by
  cases fields with
  | nil =>
      obtain rfl := List.length_eq_zero_iff.mp length
      rfl
  | cons name shape rest =>
      obtain ⟨value, first, encoded⟩ := Option.bind_eq_some_iff.mp encoded
      obtain ⟨others, later, encoded⟩ := Option.bind_eq_some_iff.mp encoded
      obtain rfl := Option.some.inj encoded
      obtain ⟨apart, distinctLater⟩ := Bool.and_eq_true_iff.mp distinct
      obtain ⟨_, distinctHere⟩ := Bool.and_eq_true_iff.mp apart
      obtain ⟨numericHere, numericLater⟩ := Bool.and_eq_true_iff.mp numeric
      obtain ⟨found, finds⟩ := List.forall_mem_cons.mp finds
      rw [Fields.size] at length
      have head := Shape.decode_encode shape (bytes.take shape.size) value distinctHere
        (by rw [List.length_take]; omega) numericHere first
      have tail := Fields.decode_encode rest (bytes.drop shape.size) others table distinctLater
        (by rw [List.length_drop]; omega) numericLater later finds
      simp only [Fields.decodeTable, found, head, tail, Option.bind_eq_bind, Option.bind_some,
        Option.pure_def, List.take_append_drop]

end

end EntityStore
