import Clausal.Proofs.Json.Canonical
import Clausal.Proofs.Schema.Identity
import Clausal.Proofs.Schema.Normal

/-!
# Identifiers of schemas, spelled out

An identifier is the digest of a text in which the members of every object are in the order of their
keys. Here these members are listed in that order (`FactSchema.id_eq_spelled`,
`RelSchema.id_eq_spelled`), so that the identifier of a given schema can be computed.
-/

namespace Clausal

open Json

/-! ### Members in order -/

namespace Json

/-- Members that are listed in the order of their keys are the sorted ones. -/
theorem sortByKey_eq_of_increasing {α : Type} {l l' : List (String × α)} (perm : l.Perm l')
    (increasing : (l'.map (·.1)).Pairwise fun a b => compare a b = .lt) : sortByKey l = l' := by
  have increasing := List.pairwise_map.1 increasing
  have distinct : (l'.map (·.1)).Nodup := SortedMap.nodup_keys ⟨l', increasing⟩
  have reordered : (sortByKey l).Perm l' := (perm_sortByKey l).trans perm
  -- the keys are different, so there is one way only to put the members in order
  refine List.Perm.eq_of_pairwise (fun a b ha hb le ge => ?_) (pairwise_sortByKey l)
    (increasing.imp fun {a b} h => show (compare a.1 b.1).isLE = true by rw [h]; rfl) reordered
  have keys : a.1 = b.1 := Std.LawfulEqCmp.eq_of_compare (Std.OrientedCmp.isLE_antisymm le ge)
  exact List.inj_on_of_nodup_map distinct (reordered.mem_iff.1 ha) hb keys

/-- The members of an object, once those inside are sorted, in the order of their keys. -/
theorem sorted_obj_eq_of_increasing (keys : List String)
    (increasing : keys.Pairwise fun a b => compare a b = .lt) {members spelled : List (String × Json)}
    (listed : spelled.map (·.1) = keys) (perm : (members.map fun m => (m.1, m.2.sorted)).Perm spelled) :
    (obj members).sorted = obj spelled := by
  subst listed
  rw [sorted, sortedMembers_eq_map, sortByKey_eq_of_increasing perm increasing]

theorem sorted_ofStrings (items : List String) : (ofStrings items).sorted = ofStrings items := by
  simp only [ofStrings, sorted, sortedItems_eq_map, List.map_map]
  rfl

theorem sorted_ofString? (s : Option String) : (ofString? s).sorted = ofString? s := by
  cases s <;> rfl

end Json

theorem Identifier.ofJson_eq_of_sorted {j j' : Json} (h : j.sorted = j') :
    ofJson j = ofText j'.compact := by
  rw [ofJson, canonical, canonicalChars_eq_compactChars, h]
  rfl

/-! ### Bytes of a text -/

theorem ByteArray.toList_loop (bytes : ByteArray) (i : Nat) (acc : List UInt8) :
    ByteArray.toList.loop bytes i acc = acc.reverse ++ bytes.data.toList.drop i := by
  fun_induction ByteArray.toList.loop bytes i acc with
  | case1 i acc less ih =>
    have inside : i < bytes.data.toList.length := less
    have get : bytes.get! i = bytes.data.toList[i] := getElem!_pos bytes.data i less
    rw [ih, List.reverse_cons, List.append_assoc, List.singleton_append, get,
      ← List.drop_eq_getElem_cons inside]
  | case2 i acc stop => rw [List.drop_of_length_le (Nat.le_of_not_lt stop), List.append_nil]

/-- The bytes of a text are those of its characters, one after the other. -/
theorem bytes_ofList (text : List Char) :
    (String.ofList text).toUTF8.toList = text.flatMap String.utf8EncodeChar := by
  have bytes : (String.ofList text).toUTF8 = text.utf8Encode := String.toByteArray_ofList
  rw [bytes, ByteArray.toList, ByteArray.toList_loop]
  exact List.toList_data_toByteArray

theorem Identifier.ofText_compact (j : Json) :
    ofText j.compact = Sha256.hex (j.compactChars.flatMap String.utf8EncodeChar) := by
  rw [ofText, compact, bytes_ofList]

/-! ### Arguments -/

namespace Arg

/-- What the identifier of a schema depends on in an argument, in the order of the keys. -/
def spelled (a : Arg) : Json :=
  .obj [("arg_name", .str a.name), ("datatype", .str a.datatype),
    ("namespace", .ofString? a.space), ("role", .ofString? (a.role.map Role.text))]

theorem sorted_canonical (a : Arg) : a.canonical.sorted = a.spelled := by
  refine sorted_obj_eq_of_increasing ["arg_name", "datatype", "namespace", "role"] (by decide) rfl ?_
  simp only [List.map_cons, List.map_nil, sorted_ofString?, sorted]
  exact .cons _ (.cons _ (.swap _ _ _))

theorem sorted_arr_canonical (args : List Arg) :
    (arr (args.map canonical)).sorted = arr (args.map spelled) := by
  simp only [sorted, sortedItems_eq_map, List.map_map]
  exact congrArg arr (List.map_congr_left fun a _ => a.sorted_canonical)

end Arg

/-! ### Schemas -/

namespace FactSchema

/-- What the identifier of an entity schema depends on, in the order of the keys. -/
def spelled (f : FactSchema) : Json :=
  .obj [("key_fields", .ofStrings f.keyFields), ("kind", .str "fact"), ("name", .str f.name),
    ("signature", .arr (f.signature.args.map Arg.spelled))]

theorem id_eq_spelled (f : FactSchema) : f.id = Identifier.ofText f.spelled.compact := by
  refine f.id_eq.trans (Identifier.ofJson_eq_of_sorted ?_)
  refine sorted_obj_eq_of_increasing ["key_fields", "kind", "name", "signature"] (by decide) rfl ?_
  rw [List.map_cons, List.map_cons, List.map_cons, List.map_cons, List.map_nil,
    Arg.sorted_arr_canonical, sorted_ofStrings]
  exact List.perm_append_singleton _ [_, _, _]

end FactSchema

namespace RelSchema

/-- What the identifier of a relation schema depends on, in the order of the keys. -/
def spelled (r : RelSchema) : Json :=
  .obj [("endpoints", .obj [("obj_key_fields", .ofStrings r.objKeyFields),
      ("sub_key_fields", .ofStrings r.subKeyFields)]),
    ("kind", .str "rel"), ("name", .str r.name), ("obj_schema_id", .str r.obj.id),
    ("props", .arr (r.props.args.map Arg.spelled)), ("sub_schema_id", .str r.sub.id)]

theorem sorted_identity (r : RelSchema) :
    (identity r.name r.sub.id r.obj.id r.subKeyFields r.objKeyFields r.props).sorted =
      r.spelled := by
  have sides : (Json.obj [("sub_key_fields", .ofStrings r.subKeyFields),
      ("obj_key_fields", .ofStrings r.objKeyFields)]).sorted =
        .obj [("obj_key_fields", .ofStrings r.objKeyFields),
          ("sub_key_fields", .ofStrings r.subKeyFields)] := by
    refine sorted_obj_eq_of_increasing ["obj_key_fields", "sub_key_fields"] (by decide) rfl ?_
    rw [List.map_cons, List.map_cons, List.map_nil, sorted_ofStrings, sorted_ofStrings]
    exact .swap _ _ _
  refine sorted_obj_eq_of_increasing
    ["endpoints", "kind", "name", "obj_schema_id", "props", "sub_schema_id"] (by decide) rfl ?_
  rw [List.map_cons, List.map_cons, List.map_cons, List.map_cons, List.map_cons, List.map_cons,
    List.map_nil, sides, Arg.sorted_arr_canonical]
  refine (@List.perm_middle _ _ [_, _, _, _] _).trans (.cons _ (.cons _ (.cons _ ?_)))
  exact (List.perm_append_singleton _ [_, _]).symm

theorem id_eq_spelled (r : RelSchema) : r.id = Identifier.ofText r.spelled.compact :=
  r.id_eq.trans (Identifier.ofJson_eq_of_sorted r.sorted_identity)

end RelSchema

/-! ### People who know each other -/

theorem FactSchema.id_person :
    person.id = "1c17f575b2555264002f66fd148ebff743f821e36084bb2d456731f381b8eed0" := by
  rw [id_eq_spelled, Identifier.ofText_compact]
  decide +kernel

theorem RelSchema.id_knows :
    knows.id = "4c22fa84c77a9fe173623d88e69b6b4b074a5defea6c34d837715dc997f49848" := by
  have sub : knows.sub.id = _ := FactSchema.id_person
  have obj : knows.obj.id = _ := FactSchema.id_person
  rw [id_eq_spelled, Identifier.ofText_compact, spelled, sub, obj]
  decide +kernel

end Clausal
