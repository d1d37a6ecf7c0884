import Mathlib.Data.List.Nodup
import Mathlib.Data.Nat.ModEq
import Mathlib.Data.Nat.Prime.Basic
import NativeBridge.Proofs.Call.Spelling
import NativeBridge.Proofs.Registry.Ancestry
import NativeBridge.Proofs.Static.Values

namespace NativeBridge

/-- An odd word has no factor in common with `2 ^ 64`, so it can be cancelled.
Nothing else about the multiplier is needed, and none of its inverses. -/
theorem mul_left_injective_of_odd {factor : UInt64} (hodd : Odd factor.toNat) :
    Function.Injective (· * factor) := by
  intro first second h
  have hcoprime : (2 ^ 64).Coprime factor.toNat := (Nat.coprime_two_left.2 hodd).pow_left 64
  have hproduct : first.toNat * factor.toNat ≡ second.toNat * factor.toNat [MOD 2 ^ 64] := by
    rw [Nat.ModEq, ← UInt64.toNat_mul, ← UInt64.toNat_mul]
    exact congrArg UInt64.toNat h
  have hword : first.toNat ≡ second.toNat [MOD 2 ^ 64] :=
    hproduct.cancel_right_of_coprime hcoprime
  exact UInt64.toNat_inj.1 (hword.eq_of_lt_of_lt first.toNat_lt second.toNat_lt)

/-- Folding changes nothing in a name without a capital from `A` to `Z`. Other
capitals may be in it. -/
theorem Text.foldCase_of_no_capital {name : String}
    (h : ∀ c ∈ name.toList, c.isUpper = false) : foldCase name = name := by
  have hkept : ∀ c ∈ name.toList, c.toLower = c := by
    intro c hc
    rw [← Char.toNat_inj, toNat_toLower, h c hc]
    rfl
  rw [← String.toList_inj, toList_foldCase, List.map_congr_left hkept, List.map_id']

namespace Identity

private theorem odd_separator : Odd separator.toNat := by decide

private theorem methodMark_ne_propertyMark : methodMark ≠ propertyMark := by decide

/-- Members with one digest have one identity exactly when their marked owners
agree. The digest itself cancels, so it does not matter what it is. -/
theorem ofMember_eq_iff {mark mark' : UInt64} {owner owner' : Identity} {digest : UInt64} :
    ofMember mark owner digest = ofMember mark' owner' digest ↔
      mark ^^^ owner.bits = mark' ^^^ owner'.bits := by
  rw [ofMember, ofMember, mk.injEq, UInt64.add_left_inj]
  exact (mul_left_injective_of_odd odd_separator).eq_iff

/-- Under one mark and one digest no two of the `2 ^ 64` owners give the same
identity. -/
theorem ofMember_owner_injective (mark digest : UInt64) :
    Function.Injective fun owner => ofMember mark owner digest := by
  intro first second h
  have hbits : first.bits = second.bits := (UInt64.xor_right_inj mark).1 (ofMember_eq_iff.1 h)
  exact congrArg mk hbits

/-- Members of one owner with one digest have different identities when they are
of different kinds. Between different owners the marks can be made up for. -/
theorem ofMember_mark_injective (owner : Identity) (digest : UInt64) :
    Function.Injective fun mark => ofMember mark owner digest :=
  fun _ _ h => (UInt64.xor_left_inj owner.bits).1 (ofMember_eq_iff.1 h)

/-- The identity of a method if names were digested in some other way. It stands
in for `ofMethod` where nothing may depend on the digest. -/
def ofMethodBy (digest : String → UInt64) (owner : Identity) (name : String) : Identity :=
  ofMember methodMark owner (digest (Text.foldCase name))

/-- The identity of a static property if names were digested in some other way.
It stands in for `ofProperty` where nothing may depend on the digest. -/
def ofPropertyBy (digest : String → UInt64) (owner : Identity) (name : String) : Identity :=
  ofMember propertyMark owner (digest name)

private theorem ofMethod_eq_ofMethodBy : ofMethod = ofMethodBy Digest.ofText := rfl

private theorem ofProperty_eq_ofPropertyBy : ofProperty = ofPropertyBy Digest.ofText := rfl

/-- The identities of methods and properties tell members of one name apart by
their owners and by their kinds, and methods do not mind the case of a name. -/
structure KeepsMembersApart (method property : Identity → String → Identity) : Prop where
  method_owners : ∀ name first second, method first name = method second name → first = second
  property_owners : ∀ name first second,
    property first name = property second name → first = second
  /-- A capital in the name would be folded in the one and not in the other. -/
  kinds : ∀ owner name, (∀ c ∈ name.toList, c.isUpper = false) →
    method owner name ≠ property owner name
  spellings : ∀ owner name name', EqualIgnoringCase name name' →
    method owner name = method owner name'

/-- Members are kept apart whatever function digests their names, also by one
that gives all names the same digest. Only names that differ may be confused by
it. -/
theorem keepsMembersApart_by (digest : String → UInt64) :
    KeepsMembersApart (ofMethodBy digest) (ofPropertyBy digest) where
  method_owners name _ _ h := ofMember_owner_injective _ (digest (Text.foldCase name)) h
  property_owners name _ _ h := ofMember_owner_injective _ (digest name) h
  kinds owner name hname h := by
    rw [ofMethodBy, Text.foldCase_of_no_capital hname] at h
    exact methodMark_ne_propertyMark (ofMember_mark_injective owner (digest name) h)
  spellings owner name name' hsame := by
    have hfold : Text.foldCase name = Text.foldCase name' := sameName_iff.2 hsame
    rw [ofMethodBy, ofMethodBy, hfold]

private theorem keepsMembersApart : KeepsMembersApart ofMethod ofProperty := by
  rw [ofMethod_eq_ofMethodBy, ofProperty_eq_ofPropertyBy]
  exact keepsMembersApart_by Digest.ofText

end Identity

variable {σ ω : Type}

/-- Properties of one name share a slot exactly when their classes have one
identity. No assumption on the digest of the name is needed. -/
theorem StaticProperty.slot_eq_iff_of_name {first second : StaticProperty σ ω}
    (hname : first.property.name = second.property.name) :
    first.slot = second.slot ↔ first.declaring.identity = second.declaring.identity := by
  rw [slot, slot, hname]
  exact ⟨Identity.keepsMembersApart.property_owners _ _ _, fun h => by rw [h]⟩

/-- No two installed classes share a slot for one name. That much of the
distinctness of slots need not be assumed. -/
theorem Registry.Distinct.slot_ne_of_name {registry : Registry σ ω} (hdistinct : registry.Distinct)
    {first second : StaticProperty σ ω} (hfirst : first.declaring ∈ registry.classes)
    (hsecond : second.declaring ∈ registry.classes)
    (hname : first.property.name = second.property.name)
    (hother : first.declaring ≠ second.declaring) : first.slot ≠ second.slot := by
  intro hslot
  have hsame := (StaticProperty.slot_eq_iff_of_name hname).1 hslot
  exact hother (List.inj_on_of_nodup_map hdistinct hfirst hsecond hsame)

/-- An update is not seen in the property of that name that another class
declares. This needs no assumption on digests, only that the two accesses
resolve to declarations of different classes. -/
theorem Bridge.readStatic_updateStatic_of_declaring_ne [NativeState σ] {bridge : Bridge σ ω}
    (hdistinct : bridge.registry.Distinct) {name target target' : String}
    {scope scope' : Option String} {reached found : StaticProperty σ ω}
    (hupdate : bridge.registry.resolve target' name scope' = .ok reached)
    (hread : bridge.registry.resolve target name scope = .ok found)
    (hother : reached.declaring ≠ found.declaring) (value : Value) :
    (bridge.updateStatic target' name value scope').2.readStatic target name scope =
      bridge.readStatic target name scope := by
  obtain ⟨hreached, hreachedName⟩ := Registry.declares_of_resolve hupdate
  obtain ⟨hfound, hfoundName⟩ := Registry.declares_of_resolve hread
  have hslots : reached.slot ≠ found.slot :=
    hdistinct.slot_ne_of_name hreached.installed hfound.installed
      (hreachedName.trans hfoundName.symm) hother
  refine readStatic_updateStatic_of_slot_ne (fun reached' found' hupdate' hread' => ?_) value
  rw [hupdate] at hupdate'
  rw [hread] at hread'
  cases hupdate'
  cases hread'
  exact hslots

namespace Identity

/-- Methods and static properties have identities that tell members of one name
apart by their owners and their kinds, whatever function digests the names. So
two classes never share the slot of a static property that both declare. -/
theorem members_kept_apart (σ ω : Type) :
    (∀ digest : String → UInt64, KeepsMembersApart (ofMethodBy digest) (ofPropertyBy digest)) ∧
    KeepsMembersApart ofMethod ofProperty ∧
    (∀ first second : StaticProperty σ ω, first.property.name = second.property.name →
      (first.slot = second.slot ↔ first.declaring.identity = second.declaring.identity)) ∧
    ∀ registry : Registry σ ω, registry.Built →
      ∀ first ∈ registry.classes, ∀ second ∈ registry.classes, first ≠ second →
        ∀ own other : Property, own.name = other.name →
          StaticProperty.slot ⟨first, own⟩ ≠ StaticProperty.slot ⟨second, other⟩ := by
  refine ⟨keepsMembersApart_by, keepsMembersApart,
    fun first second hname => StaticProperty.slot_eq_iff_of_name hname, ?_⟩
  intro registry hbuilt first hfirst second hsecond hother own other hname
  exact hbuilt.distinct.slot_ne_of_name hfirst hsecond hname hother

/-- A class and one below it that declares a property of the same name again. -/
def keepers : Registry Sample Unit := ⟨[Bridge.rival, Bridge.keeper], false⟩

private theorem built_keepers : keepers.Built := by
  have hkeeper : (⟨[Bridge.keeper], false⟩ : Registry Sample Unit).Built :=
    (Registry.Built.empty false).of_isSome (by decide +kernel)
  exact hkeeper.of_isSome (by decide +kernel)

/-- The members stay apart also where every name has the same digest. Both
classes declare a property of the same name, and one inherits from the other. -/
theorem members_kept_apart_keepers :
    keepers.Built ∧ Bridge.rival ≠ Bridge.keeper ∧
    (∀ c ∈ "kept".toList, c.isUpper = false) ∧ EqualIgnoringCase "kePT" "KEpt" ∧
    StaticProperty.slot ⟨Bridge.rival, ⟨"kept", .ownClass, true, .int 9⟩⟩ ≠
      StaticProperty.slot ⟨Bridge.keeper, Bridge.kept⟩ ∧
    ofMethodBy (fun _ => 7) Bridge.rival.identity "kept" ≠
      ofMethodBy (fun _ => 7) Bridge.keeper.identity "kept" ∧
    ofMethodBy (fun _ => 7) Bridge.keeper.identity "kept" ≠
      ofPropertyBy (fun _ => 7) Bridge.keeper.identity "kept" ∧
    ofMethod Bridge.keeper.identity "kePT" = ofMethod Bridge.keeper.identity "KEpt" := by
  have hclasses : Bridge.rival ≠ Bridge.keeper := fun h => nomatch congrArg NativeClass.parent h
  have howners : Bridge.rival.identity ≠ Bridge.keeper.identity := by decide +kernel
  have hplain : ∀ c ∈ "kept".toList, c.isUpper = false := by simp
  have hspelling : EqualIgnoringCase "kePT" "KEpt" := sameName_iff.1 (by decide)
  obtain ⟨hany, hdigest, -, hslots⟩ := members_kept_apart Sample Unit
  refine ⟨built_keepers, hclasses, hplain, hspelling, ?_, ?_, ?_, ?_⟩
  · exact hslots keepers built_keepers _ (by simp [keepers]) _ (by simp [keepers]) hclasses _ _ rfl
  · exact fun h => howners ((hany _).method_owners _ _ _ h)
  · exact (hany _).kinds _ _ hplain
  · exact hdigest.spellings _ _ _ hspelling

end Identity

end NativeBridge
