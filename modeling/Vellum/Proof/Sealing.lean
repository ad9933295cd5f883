import Vellum.Lib.JsonContent
import Vellum.Spec.Sealing

/-!
# What is unsealed is what was sealed

Base64 and UTF-8 are undone byte by byte, and `json.loads` reads the canonical text: of a payload
only the order of its keys is lost.

* `b64decode_b64encode`: three bytes at a time.
* `decodeUtf8_encodeUtf8`: a text and its bytes.
* `unseal_seal`: a payload through Vault and back.
-/

namespace Vellum

/-! ## Base64 -/

/-- The table of the decoder is the one of the encoder. -/
theorem base64Char_table : ∀ v : Fin 64, base64Char v ≠ '=' ∧ base64Value? (base64Char v) = some v.val ∧
    (base64Char v).toNat < 128 := by
  decide +kernel

section Decode

variable {v left pads : ℕ} {out bytes : List ℕ} {cs : List Char}

theorem a2bBase64_first (hv : v < 64) :
    a2bBase64 0 left pads out (base64Char v :: cs) = a2bBase64 1 v 0 out cs := by
  obtain ⟨hne, hvalue, -⟩ := base64Char_table ⟨v, hv⟩
  rw [a2bBase64, if_neg hne, hvalue]
  rfl

theorem a2bBase64_second (hv : v < 64) :
    a2bBase64 1 left pads out (base64Char v :: cs) = a2bBase64 2 (v % 16) 0 (out ++ [left * 4 + v / 16]) cs := by
  obtain ⟨hne, hvalue, -⟩ := base64Char_table ⟨v, hv⟩
  rw [a2bBase64, if_neg hne, hvalue]
  rfl

theorem a2bBase64_third (hv : v < 64) :
    a2bBase64 2 left pads out (base64Char v :: cs) = a2bBase64 3 (v % 4) 0 (out ++ [left * 16 + v / 4]) cs := by
  obtain ⟨hne, hvalue, -⟩ := base64Char_table ⟨v, hv⟩
  rw [a2bBase64, if_neg hne, hvalue]
  rfl

theorem a2bBase64_fourth (hv : v < 64) :
    a2bBase64 3 left pads out (base64Char v :: cs) = a2bBase64 0 0 0 (out ++ [left * 64 + v]) cs := by
  obtain ⟨hne, hvalue, -⟩ := base64Char_table ⟨v, hv⟩
  rw [a2bBase64, if_neg hne, hvalue]
  rfl

/-- Padding in its place ends the text. -/
theorem a2bBase64_pad_three : a2bBase64 3 left 0 out ['='] = .ok out := rfl

theorem a2bBase64_pad_two : a2bBase64 2 left 0 out ['=', '='] = .ok out := rfl

/-- **Three bytes at a time**, the last group by itself. -/
theorem a2bBase64_b2aBase64 (h : ∀ b ∈ bytes, b < 256) :
    a2bBase64 0 0 0 out (b2aBase64 bytes) = .ok (out ++ bytes) := by
  induction bytes using b2aBase64.induct generalizing out with
  | case1 => simp [b2aBase64, a2bBase64]
  | case2 a =>
    have ha : a < 256 := h a (by simp)
    have hfirst : a / 4 * 4 + a % 4 * 16 / 16 = a := by omega
    rw [b2aBase64, a2bBase64_first (by omega), a2bBase64_second (by omega)]
    rw [a2bBase64_pad_two, hfirst]
  | case3 a b =>
    have ha : a < 256 := h a (by simp)
    have hb : b < 256 := h b (by simp)
    have hfirst : a / 4 * 4 + (a % 4 * 16 + b / 16) / 16 = a := by omega
    have hsecond : (a % 4 * 16 + b / 16) % 16 * 16 + b % 16 * 4 / 4 = b := by omega
    rw [b2aBase64, a2bBase64_first (by omega), a2bBase64_second (by omega), a2bBase64_third (by omega)]
    rw [a2bBase64_pad_three, hfirst, hsecond, List.append_assoc, List.singleton_append]
  | case4 a b c rest ih =>
    have ha : a < 256 := h a (by simp)
    have hb : b < 256 := h b (by simp)
    have hc : c < 256 := h c (by simp)
    have hfirst : a / 4 * 4 + (a % 4 * 16 + b / 16) / 16 = a := by omega
    have hsecond : (a % 4 * 16 + b / 16) % 16 * 16 + (b % 16 * 4 + c / 64) / 4 = b := by omega
    have hthird : (b % 16 * 4 + c / 64) % 4 * 64 + c % 64 = c := by omega
    rw [b2aBase64, a2bBase64_first (by omega), a2bBase64_second (by omega), a2bBase64_third (by omega),
      a2bBase64_fourth (by omega)]
    rw [hfirst, hsecond, hthird, ih fun x hx => h x (by simp [hx])]
    simp

theorem b2aBase64_ascii (h : ∀ b ∈ bytes, b < 256) : ∀ c ∈ b2aBase64 bytes, c.toNat < 128 := by
  have hchar : ∀ {v}, v < 64 → (base64Char v).toNat < 128 := fun {v} hv => (base64Char_table ⟨v, hv⟩).2.2
  have hpad : '='.toNat < 128 := by decide
  induction bytes using b2aBase64.induct with
  | case1 =>
    intro c hc
    cases hc
  | case2 a =>
    have ha : a < 256 := h a (by simp)
    simp only [b2aBase64, List.forall_mem_cons, List.not_mem_nil, false_implies, implies_true, and_true]
    exact ⟨hchar (by omega), hchar (by omega), hpad, hpad⟩
  | case3 a b =>
    have ha : a < 256 := h a (by simp)
    have hb : b < 256 := h b (by simp)
    simp only [b2aBase64, List.forall_mem_cons, List.not_mem_nil, false_implies, implies_true, and_true]
    exact ⟨hchar (by omega), hchar (by omega), hchar (by omega), hpad⟩
  | case4 a b c rest ih =>
    have ha : a < 256 := h a (by simp)
    have hb : b < 256 := h b (by simp)
    have hc : c < 256 := h c (by simp)
    simp only [b2aBase64, List.forall_mem_cons]
    exact ⟨hchar (by omega), hchar (by omega), hchar (by omega), hchar (by omega), ih fun x hx => h x (by simp [hx])⟩

/-- **Base64 is undone.** -/
theorem b64decode_b64encode (h : ∀ b ∈ bytes, b < 256) : b64decode (b64encode bytes) = .ok bytes := by
  have hascii : ((b64encode bytes).toList.all fun c => c.toNat < 128) = true := by
    rw [b64encode, String.toList_ofList, List.all_eq_true]
    intro c hc
    exact decide_eq_true (b2aBase64_ascii h c hc)
  rw [b64decode, if_pos hascii, b64encode, String.toList_ofList, a2bBase64_b2aBase64 h, List.nil_append]

end Decode

example : b64encode [98, 97, 100, 33] = "YmFkIQ==" := by decide

/-! ## UTF-8 -/

theorem encodeUtf8_lt {text : String} : ∀ b ∈ encodeUtf8 text, b < 256 := by
  intro b hb
  obtain ⟨u, -, rfl⟩ := List.mem_map.1 hb
  exact u.toNat_lt

/-- **A text and its bytes.** -/
theorem decodeUtf8_encodeUtf8 (text : String) : decodeUtf8 (encodeUtf8 text) = .ok text := by
  have hbytes : (encodeUtf8 text).map UInt8.ofNat = text.toUTF8.data.toList := by
    rw [encodeUtf8, List.map_map]
    exact (List.map_congr_left fun u _ => UInt8.ofNat_toNat).trans (List.map_id _)
  have harray : (⟨((encodeUtf8 text).map UInt8.ofNat).toArray⟩ : ByteArray) = text.toUTF8 := by
    rw [hbytes]
  have hvalid : text.toUTF8.IsValidUTF8 := text.isValidUTF8
  rw [decodeUtf8, harray, String.fromUTF8?, dif_pos hvalid]
  rfl

/-! ## Sorted keys -/

namespace Json

/-- Sorting once is enough, by induction on the value. -/
theorem sortKeys_sortKeys {j : Json} (h : j.Distinct) : j.sortKeys.sortKeys = j.sortKeys := by
  induction j with
  | arr l ih =>
    rw [Distinct, distinctItems_iff] at h
    simp only [sortKeys, sortItems_eq, List.map_map, arr.injEq]
    exact List.map_congr_left fun j hj => ih j hj (h j hj)
  | obj l ih =>
    rw [Distinct, distinctFields_iff] at h
    obtain ⟨hnd, hfields⟩ := h
    have hperm : (sortByKey (l.map sortedField)).Perm (l.map sortedField) := List.perm_insertionSort _ _
    have hsorted : sortFields l = l.map sortedField := sortFields_eq l
    have hagain : (l.map sortedField).map sortedField = l.map sortedField := by
      rw [List.map_map]
      refine List.map_congr_left fun f hf => ?_
      exact congrArg (Prod.mk f.1) (ih f hf (hfields f hf))
    refine ((sortKeys_obj_eq_iff hnd).2 ?_).symm
    have hmap := hperm.map sortedField
    rw [hagain] at hmap
    rw [hsorted]
    exact hmap.symm
  | _ => rfl

/-- The fields of an object whose keys are sorted. -/
theorem lookup_sorted {l : List (String × Json)} (hnd : (l.map Prod.fst).Nodup) (k : String) :
    (sortByKey (sortFields l)).lookup k = (l.lookup k).map sortKeys := by
  have hperm : (sortByKey (l.map sortedField)).Perm (l.map sortedField) := List.perm_insertionSort _ _
  have hsorted : sortFields l = l.map sortedField := sortFields_eq l
  have hkeys : ((sortByKey (l.map sortedField)).map Prod.fst).Nodup := by
    rw [(hperm.map Prod.fst).nodup_iff, map_sortedField_fst]
    exact hnd
  refine Option.ext fun v => ?_
  rw [hsorted, lookup_eq_some hkeys, hperm.mem_iff, List.mem_map, Option.map_eq_some_iff]
  constructor
  · rintro ⟨f, hf, heq⟩
    obtain ⟨rfl, rfl⟩ := Prod.mk.inj heq
    exact ⟨f.2, (lookup_eq_some hnd).2 hf, rfl⟩
  · rintro ⟨v', hv', rfl⟩
    exact ⟨(k, v'), (lookup_eq_some hnd).1 hv', rfl⟩

/-- Sorting the keys keeps the content. -/
theorem sameContent_sortKeys {j : Json} (h : j.Distinct) (h' : j.sortKeys.Distinct) : j.sortKeys.SameContent j :=
  (sortKeys_eq_iff h' h).1 (sortKeys_sortKeys h)

/-- Every field has an equal one, in any order. -/
theorem pyEqFields_iff {l l' : List (String × Json)} :
    pyEqFields l l' = true ↔ ∀ f ∈ l, ∃ v', l'.lookup f.1 = some v' ∧ pyEq f.2 v' = true := by
  induction l with
  | nil => simp [pyEqFields]
  | cons f fs ih =>
    rw [pyEqFields, Bool.and_eq_true, ih, List.forall_mem_cons]
    refine and_congr ?_ Iff.rfl
    cases l'.lookup f.1 with
    | none => simp
    | some v' => simp

/-- **Python compares objects without regard to the order of their keys.** -/
theorem pyEq_sortKeys (j j' : Json) : pyEq j.sortKeys j' = pyEq j j' := by
  induction j generalizing j' with
  | arr l ih =>
    cases j' with
    | arr l' =>
      rw [sortKeys, pyEq, pyEq]
      induction l generalizing l' with
      | nil => rfl
      | cons j js ihjs =>
        cases l' with
        | nil => rfl
        | cons i is =>
          rw [sortItems, pyEqItems, pyEqItems, ih j List.mem_cons_self,
            ihjs fun j hj => ih j (List.mem_cons_of_mem _ hj)]
    | _ => rfl
  | obj l ih =>
    cases j' with
    | obj l' =>
      have hperm : (sortByKey (sortFields l)).Perm (l.map sortedField) := by
        rw [sortFields_eq]
        exact List.perm_insertionSort _ _
      have hlength : (sortByKey (sortFields l)).length = l.length := by
        rw [hperm.length_eq, List.length_map]
      have hfields : pyEqFields (sortByKey (sortFields l)) l' = pyEqFields l l' := by
        rw [Bool.eq_iff_iff, pyEqFields_iff, pyEqFields_iff]
        constructor
        · intro h f hf
          obtain ⟨v', hv', heq⟩ := h (sortedField f) (hperm.mem_iff.2 (List.mem_map_of_mem hf))
          exact ⟨v', hv', (ih f hf v').symm.trans heq⟩
        · intro h f hf
          obtain ⟨g, hg, rfl⟩ := List.mem_map.1 (hperm.mem_iff.1 hf)
          obtain ⟨v', hv', heq⟩ := h g hg
          exact ⟨v', hv', (ih g hg v').trans heq⟩
      rw [sortKeys, pyEq, pyEq, hlength, hfields]
    | _ => rfl
  | _ => rfl

end Json

/-! ## Through Vault and back -/

namespace PyJson

variable {F : FloatReader} {j : Json}

/-- Sorting the keys leaves what can be read readable. -/
theorem readable_sortKeys (h : Readable F j) : Readable F j.sortKeys := by
  induction h with
  | null => exact .null
  | bool b => exact .bool b
  | int i hi => exact .int i hi
  | float f hf => exact .float f hf
  | str s => exact .str s
  | arr items _ ih =>
    rw [Json.sortKeys, Json.sortItems_eq]
    refine .arr _ fun j hj => ?_
    obtain ⟨i, hi, rfl⟩ := List.mem_map.1 hj
    exact ih i hi
  | obj fields hnd _ ih =>
    have hperm : (Json.sortByKey (fields.map Json.sortedField)).Perm (fields.map Json.sortedField) :=
      List.perm_insertionSort _ _
    rw [Json.sortKeys, Json.sortFields_eq]
    refine .obj _ ?_ fun f hf => ?_
    · refine (hperm.map Prod.fst).nodup_iff.2 ?_
      rw [Json.map_sortedField_fst]
      exact hnd
    · obtain ⟨g, hg, rfl⟩ := List.mem_map.1 (hperm.subset hf)
      exact ih g hg

theorem distinct_of_readable (h : Readable F j) : j.Distinct := by
  induction h with
  | arr items _ ih => exact Json.distinctItems_iff.2 ih
  | obj fields hnd _ ih => exact ⟨hnd, Json.distinctFields_iff.2 ih⟩
  | _ => trivial

theorem toPy_inj {j j' : Json} (h : j.toPy = j'.toPy) : j = j' := by
  have hback := toJson?_toPy j
  rw [h, toJson?_toPy] at hback
  exact (Option.some.inj hback).symm

/-- **The canonical text is read back**, with its keys sorted. -/
theorem loads_canonical (h : Readable F j) : loads F j.canonical.toList = .ok j.sortKeys.toPy := by
  rw [Json.canonical, String.toList_ofList]
  exact loads_render ⟨rfl, rfl⟩ (readable_sortKeys h)

end PyJson

section Vault

variable {V : Transit} {F : PyJson.FloatReader} {keyName sealedPayload : String} {payload : JobPayload} {draw : ℕ}

/-- What `unseal_job_payload` makes of the text that was encrypted. -/
theorem unseal_of_decrypt (hread : PyJson.Readable F payload.toJson)
    (h : V.decrypt keyName sealedPayload = .ok (b64encode (canonicalJsonBytes payload.toJson))) :
    unsealJobPayload V F keyName sealedPayload = .ok payload.toJson.sortKeys.toPy := by
  have hbytes : V.decryptBytes keyName sealedPayload = .ok (canonicalJsonBytes payload.toJson) := by
    unfold Transit.decryptBytes
    rw [bind_ok]
    refine ⟨_, h, mapError_ok.2 ?_⟩
    exact b64decode_b64encode encodeUtf8_lt
  unfold unsealJobPayload
  rw [bind_ok]
  refine ⟨_, hbytes, bind_ok.2 ⟨_, decodeUtf8_encodeUtf8 payload.toJson.canonical, mapError_ok.2 ?_⟩⟩
  exact PyJson.loads_canonical hread

/-- **What is unsealed is what was sealed**, its keys sorted. -/
theorem unseal_seal {decrypted : Json} (hread : PyJson.Readable F payload.toJson)
    (hseal : sealJobPayload V keyName payload draw = .ok sealedPayload)
    (hunseal : unsealJobPayload V F keyName sealedPayload = .ok decrypted.toPy) :
    decrypted = payload.toJson.sortKeys := by
  cases hdecrypt : V.decrypt keyName sealedPayload with
  | error e =>
    unfold unsealJobPayload Transit.decryptBytes at hunseal
    rw [hdecrypt] at hunseal
    cases hunseal
  | ok text =>
    -- Vault gives back the base64 text it was given
    rw [V.faithful hseal hdecrypt] at hdecrypt
    rw [unseal_of_decrypt hread hdecrypt] at hunseal
    exact PyJson.toPy_inj (Except.ok.inj hunseal).symm

end Vault

end Vellum
