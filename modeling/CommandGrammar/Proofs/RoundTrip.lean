import CommandGrammar.Grammar.Text
import CommandGrammar.Proofs.Settling

/-!
# A grammar is read back from its document

A document that settles to the one of a grammar is read as that grammar, however the notation leaves
its scalars. Fields that were left out come back as their defaults. Each decoder is shown to undo
its encoder on all such documents, so that the lemma about a record only uses those about its
fields; the induction is on the tree of flags.
-/

namespace CommandGrammar

open Document (Part Rules Settles SlotFor settles_list settles_object settles_text)

variable {α β : Type} {rules : Rules} {d : Document}

/-! ## Scalars, lists and fields -/

theorem Document.Settles.bool? {b : Bool} (h : d.Settles (.bool b)) : d.bool? = some b := by
  rcases h.of_bool with rfl | ⟨s, rfl, hs⟩
  · rfl
  · exact hs

theorem Document.Settles.textOrNull? {s : String} (h : d.Settles (.text s)) :
    d.textOrNull? = some (some s) := by
  rcases h.of_text with rfl | ⟨style, rfl, hn⟩
  · rfl
  · cases style with
    | plain => simp [Document.textOrNull?, hn rfl]
    | literal | quoted => rfl

theorem Policy.ofDocument?_settles {p : Policy} (h : d.Settles p.toDocument) :
    Policy.ofDocument? rules d = some p := by
  rcases h.of_text with rfl | ⟨style, rfl, -⟩ <;> exact ofName?_name p

/-- A list is read if its items are. -/
theorem items?_mapM_settles {dec : Document → Option α} {enc : α → Document} {xs : List α}
    (hdec : ∀ x ∈ xs, ∀ d, d.Settles (enc x) → dec d = some x)
    (h : d.Settles (.list (xs.map enc))) :
    (d.items?.bind fun items => items.mapM fun i => dec i.val) = some xs := by
  obtain ⟨ds, rfl, hds⟩ := h.of_list
  refine Document.items?_mapM ?_
  rw [List.forall₂_map_right_iff] at hds
  clear h
  induction hds with
  | nil => exact .nil
  | cons hd _ ih =>
    rw [List.forall_mem_cons] at hdec
    exact .cons (hdec.1 _ hd) (ih hdec.2)

/-- The slot of a record for a field with a default. -/
theorem exists_mapM_of_rel {R : Document → Document → Prop} {slot : Option (Part d)}
    {field : Option Document} {b : β} (dec : Document → Option α) (whole : Option α → β)
    (h : Option.Rel (fun p v => R p.val v) slot field)
    (hsome : ∀ v, field = some v → ∀ d, R d v → ∃ a, dec d = some a ∧ whole (some a) = b)
    (hnone : field = none → whole none = b) :
    ∃ a, slot.mapM (fun p => dec p.val) = some a ∧ whole a = b := by
  cases h with
  | none => exact ⟨none, rfl, hnone rfl⟩
  | @some p v hp =>
    obtain ⟨a, ha, hb⟩ := hsome v rfl p.val hp
    exact ⟨some a, by rw [Option.mapM_some, ha]; rfl, hb⟩

/-- The slot of a record for a list that is left out if there is nothing in it. -/
theorem exists_mapM_listField {slot : Option (Part d)} {name : String} {items : List Document}
    {dec : Document → Option (List α)} {xs : List α}
    (h : SlotFor slot (List.lookup name (listField name items)))
    (hdec : ∀ d, d.Settles (.list items) → dec d = some xs) (hnil : items = [] → xs = []) :
    ∃ a, slot.mapM (fun p => dec p.val) = some a ∧ a.getD [] = xs := by
  unfold listField at h
  split_ifs at h with hi
  · refine exists_mapM_of_rel dec (·.getD []) h (by simp) fun _ => ?_
    exact (hnil (List.isEmpty_iff.1 hi)).symm
  · rw [List.lookup_cons_self] at h
    refine exists_mapM_of_rel dec (·.getD []) h ?_ (by simp)
    intro v hv d hd
    cases hv
    exact ⟨xs, hdec d hd, rfl⟩

/-! ## Converters -/

namespace Converter

/-- Whether the limits of whole numbers are of the type that is read. -/
def fits : Converter → Bool
  | integer b => b.min.all IntType.i64.holds && b.max.all IntType.i64.holds
  | unsigned b => b.min.all IntType.u64.holds && b.max.all IntType.u64.holds
  | _ => true

theorem optional_settles {f : α → Document} {o : Option α} (hf : ∀ a, (f a).Settles (f a)) :
    (optional f o).Settles (optional f o) := by
  cases o with
  | none => exact ⟨rfl, rfl⟩
  | some a => exact hf a

theorem boundFields_ne_type {f : α → Document} {b : Bounds α} :
    ∀ x ∈ boundFields f b, x.1 ≠ "type" := by
  simp [boundFields]

theorem boundFields_settles {f : α → Document} (hf : ∀ a, (f a).Settles (f a)) (b : Bounds α) :
    ∀ x ∈ boundFields f b, x.2.Settles x.2 := by
  simp only [boundFields, List.forall_mem_cons]
  exact ⟨optional_settles hf, optional_settles hf, ⟨rfl, rfl⟩, ⟨rfl, rfl⟩, by simp⟩

theorem toDocument_settles (c : Converter) : c.toDocument.Settles c.toDocument := by
  have htype : ∀ {t : String} {fields : List (String × Document)},
      (∀ x ∈ fields, x.2.Settles x.2) →
        (Document.object (("type", .text t) :: fields)).Settles
          (.object (("type", .text t) :: fields)) :=
    fun h => settles_object (List.forall_mem_cons.2 ⟨settles_text _, h⟩)
  cases c with
  | text | existingFile | existingDirectory => exact htype (by simp)
  | integer b | unsigned b | number b => exact htype (boundFields_settles (fun _ => ⟨rfl, rfl⟩) b)
  | choice values =>
    refine htype fun x hx => ?_
    rw [List.mem_singleton] at hx
    subst hx
    refine settles_list fun d hd => ?_
    obtain ⟨s, -, rfl⟩ := List.mem_map.1 hd
    exact settles_text s

theorem partition_cons {p : α → Bool} {x : α} {xs : List α} (hx : p x = true)
    (hxs : ∀ y ∈ xs, p y = false) : (x :: xs).partition p = ([x], xs) := by
  rw [List.partition_eq_filter_filter, List.filter_cons_of_pos hx,
    List.filter_eq_nil_iff.2 fun y hy => by simp [hxs y hy], List.filter_cons_of_neg (by simp [hx]),
    List.filter_eq_self.2 fun y hy => by simp [hxs y hy]]

/-- Settings settle in two steps: the keys, to see which is the type, then the values. -/
theorem exists_keyed : ∀ {fs gs : List (Document × Document)},
    List.Forall₂ Document.FieldSettles fs gs →
    ∃ keyed, fs.mapM (fun x => x.1.settle.map fun k => (k, x.2)) = some keyed ∧
      keyed.mapM (fun x => x.2.settle.map fun v => (x.1, v)) = some gs ∧
      keyed.map (·.1) = gs.map (·.1)
  | [], [], .nil => ⟨[], rfl, rfl, rfl⟩
  | (k, v) :: fs, (k', v') :: gs, .cons ⟨hk, hv⟩ h => by
    obtain ⟨keyed, hkeys, hvalues, hfst⟩ := exists_keyed h
    refine ⟨(k', v) :: keyed, ?_, ?_, by simp [hfst]⟩
    · rw [List.mapM_cons, hkeys, show k.settle = some k' from hk.settle]
      rfl
    · rw [List.mapM_cons, hvalues, show v.settle = some v' from hv.settle]
      rfl

/-- A record that starts with its type is split into that and its settings. -/
theorem split?_settles {t : String} {fields : List (String × Document)}
    (h : d.Settles (.object (("type", .text t) :: fields)))
    (hf : ∀ x ∈ fields, x.1 ≠ "type") {i : Nat} (ht : typeNames.idxOf? t = some i) :
    split? rules d = some (.known i, .object fields) := by
  obtain ⟨fs, rfl, hfs⟩ := h.of_record
  rw [List.map_cons, List.forall₂_cons_right_iff] at hfs
  obtain ⟨⟨kt, vt⟩, fs, ⟨hk, hv⟩, hfs, rfl⟩ := hfs
  obtain ⟨keyed, hkeys, hvalues, hfst⟩ := exists_keyed hfs
  have hall : ((kt, vt) :: fs).mapM (fun x => x.1.settle.map fun k => (k, x.2)) =
      some ((.text "type", vt) :: keyed) := by
    rw [List.mapM_cons, hkeys, show kt.settle = some (.text "type") from hk.settle]
    rfl
  have hm : Document.meaning? rules typeNames vt = some (.known i) := by
    rw [Settles.meaning?_eq hv]
    simp [Document.meaning?, Document.text?, ht]
  unfold split?
  simp only [untagged?, Option.bind_eq_bind, Option.bind_some]
  rw [hall, Option.bind_some, partition_cons rfl]
  · simp only
    rw [hm, Option.bind_some, hvalues]
    rfl
  · rintro ⟨k, v⟩ hy
    have hmem : k ∈ keyed.map (·.1) := List.mem_map_of_mem hy
    rw [hfst, List.map_map, List.mem_map] at hmem
    obtain ⟨x, hx, rfl⟩ := hmem
    have hne := hf x hx
    simp only [Function.comp_apply]
    split
    · simp_all
    · rfl

theorem bounds?_boundFields {f : α → Document} {limit? : Document → Option (Option α)}
    {b : Bounds α} (hnull : limit? .null = some none)
    (hmin : ∀ a ∈ b.min, limit? (f a) = some (some a))
    (hmax : ∀ a ∈ b.max, limit? (f a) = some (some a)) :
    bounds? limit? (.object (boundFields f b)) = some b := by
  have hlimit : ∀ o : Option α, (∀ a ∈ o, limit? (f a) = some (some a)) →
      limit? (optional f o) = some o := by
    intro o ho
    cases o with
    | none => exact hnull
    | some a => exact ho a rfl
  obtain ⟨slots, hslots, hrel⟩ := Document.object_slots? .settled false
    (show boundNames.Nodup by decide) (List.Sublist.refl ((boundFields f b).map (·.1)))
  change List.Forall₂ _ slots [some _, some _, some _, some _] at hrel
  obtain _ | ⟨⟨hlower⟩, _ | ⟨⟨hupper⟩, _ | ⟨⟨hlo⟩, _ | ⟨⟨hhi⟩, ⟨⟩⟩⟩⟩⟩ := hrel
  unfold bounds?
  simp only [hslots, Option.bind_eq_bind, Option.bind_some, Option.mapM_some, hlower, hupper, hlo,
    hhi, hlimit _ hmin, hlimit _ hmax, Document.bool?]
  rfl

theorem choice?_values {values : List String} :
    choice? (.object [("values", .list (values.map .text))]) = some (choice values) := by
  obtain ⟨slots, hslots, hrel⟩ := Document.object_slots? .settled false
    (show ["values"].Nodup by decide)
    (List.Sublist.refl ([("values", Document.list (values.map .text))].map (·.1)))
  change List.Forall₂ _ slots [some _] at hrel
  obtain _ | ⟨⟨hvalues⟩, ⟨⟩⟩ := hrel
  have hlist : textList? (.list (values.map .text)) = some values :=
    items?_mapM_settles (fun _ _ _ hd => hd.text?)
      (settles_list (List.forall_mem_map.2 fun s _ => settles_text s))
  unfold choice?
  simp only [hslots, Option.bind_eq_bind, Option.bind_some, hvalues, hlist]
  rfl

theorem ofDocument?_settles {c : Converter} (hc : c.fits = true) (h : d.Settles c.toDocument) :
    ofDocument? rules d = some c := by
  have hint : ∀ {t : IntType} {o : Option Int}, o.all t.holds = true →
      ∀ n ∈ o, intOrNull? t (.integer n) = some (some n) := by
    intro t o ho n hn
    rw [Option.mem_def] at hn
    subst hn
    simp only [Option.all_some] at ho
    simp [intOrNull?, ho]
  cases c with
  | text | existingFile | existingDirectory =>
    rw [ofDocument?, split?_settles h (by simp) rfl]
    rfl
  | integer b =>
    rw [fits, Bool.and_eq_true] at hc
    rw [ofDocument?, split?_settles h boundFields_ne_type rfl]
    simp only [Option.bind_eq_bind, Option.bind_some]
    rw [bounds?_boundFields rfl (hint hc.1) (hint hc.2)]
    rfl
  | unsigned b =>
    rw [fits, Bool.and_eq_true] at hc
    rw [ofDocument?, split?_settles h boundFields_ne_type rfl]
    simp only [Option.bind_eq_bind, Option.bind_some]
    rw [bounds?_boundFields rfl (hint hc.1) (hint hc.2)]
    rfl
  | number b =>
    rw [ofDocument?, split?_settles h boundFields_ne_type rfl]
    simp only [Option.bind_eq_bind, Option.bind_some]
    rw [bounds?_boundFields rfl (fun _ _ => rfl) (fun _ _ => rfl)]
    rfl
  | choice values =>
    rw [ofDocument?, split?_settles h (by simp) rfl]
    exact choice?_values

end Converter

/-! ## Arguments -/

namespace ArgSpec

def fits (a : ArgSpec) : Bool :=
  a.converter.fits

theorem toDocument_settles (a : ArgSpec) : a.toDocument.Settles a.toDocument := by
  refine settles_object ?_
  simp only [List.forall_mem_cons]
  exact ⟨settles_text _, settles_text _, settles_text _, a.converter.toDocument_settles, by simp⟩

theorem ofDocument?_settles {a : ArgSpec} (ha : a.fits = true) (h : d.Settles a.toDocument) :
    ofDocument? rules d = some a := by
  obtain ⟨slots, hslots, hrel⟩ := h.slots? rules true
    (show fieldNames.Nodup by decide) (List.Sublist.refl _)
  change List.Forall₂ _ slots [some _, some _, some _, some _] at hrel
  obtain _ | ⟨⟨hname⟩, _ | ⟨⟨hpolicy⟩, _ | ⟨⟨hdesc⟩, _ | ⟨⟨hconv⟩, ⟨⟩⟩⟩⟩⟩ := hrel
  unfold ofDocument?
  simp only [hslots, Option.bind_eq_bind, Option.bind_some, Option.mapM_some, hname.text?,
    Policy.ofDocument?_settles hpolicy, hdesc.text?, Converter.ofDocument?_settles ha hconv]
  rfl

theorem list_settles (as : List ArgSpec) :
    (Document.list (as.map toDocument)).Settles (.list (as.map toDocument)) :=
  settles_list (List.forall_mem_map.2 fun a _ => a.toDocument_settles)

theorem listOfDocument?_settles (rules : Rules) {as : List ArgSpec} (ha : as.all fits = true)
    (h : d.Settles (.list (as.map toDocument))) : listOfDocument? rules d = some as := by
  rw [List.all_eq_true] at ha
  exact items?_mapM_settles (fun a hm _ hd => ofDocument?_settles (ha a hm) hd) h

end ArgSpec

/-! ## Flags and groups -/

theorem sublist_listField (name : String) (items : List Document) :
    ((listField name items).map (·.1)).Sublist [name] := by
  unfold listField
  split
  · exact List.nil_sublist _
  · exact List.Sublist.refl _

theorem nested_sublist (head : List (String × Document)) (args flags : List Document) :
    ((head ++ listField "args" args ++ listField "flags" flags).map (·.1)).Sublist
      (head.map (·.1) ++ ["args", "flags"]) := by
  rw [List.map_append, List.map_append, List.append_assoc]
  exact (List.Sublist.refl _).append ((sublist_listField _ _).append (sublist_listField _ _))

theorem lookup_listField_of_ne {name n : String} {items : List Document} (h : n ≠ name) :
    List.lookup n (listField name items) = none := by
  unfold listField
  split_ifs
  · rfl
  · simp [List.lookup_cons, beq_eq_false_iff_ne.2 h]

theorem listField_settles {name : String} {items : List Document}
    (h : (Document.list items).Settles (.list items)) :
    ∀ x ∈ listField name items, x.2.Settles x.2 := by
  unfold listField
  split
  · simp
  · simpa using h

mutual

def FlagEntry.fits : FlagEntry → Bool
  | .flag _ spec => spec.fits
  | .group _ members => FlagSpec.allFit members

def FlagSpec.fits : FlagSpec → Bool
  | ⟨_, _, args, flags⟩ => args.all ArgSpec.fits && FlagEntry.allFit flags

def FlagEntry.allFit : List FlagEntry → Bool
  | [] => true
  | e :: es => e.fits && FlagEntry.allFit es

def FlagSpec.allFit : List FlagSpec → Bool
  | [] => true
  | spec :: specs => spec.fits && FlagSpec.allFit specs

end

namespace FlagEntry

mutual

theorem toDocument_settles : ∀ e : FlagEntry, e.toDocument.Settles e.toDocument
  | .flag policy ⟨key, description, args, flags⟩ => by
    refine settles_object ?_
    simp only [List.forall_mem_append, List.forall_mem_cons]
    exact ⟨⟨⟨settles_text _, settles_text _, settles_text _, by simp⟩,
      listField_settles (ArgSpec.list_settles args)⟩,
        listField_settles (settles_list (listToDocuments_settle flags))⟩
  | .group policy members => by
    refine settles_object ?_
    simp only [List.forall_mem_cons]
    exact ⟨settles_text _, settles_list (membersToDocuments_settle members), by simp⟩

theorem memberToDocument_settles : ∀ spec : FlagSpec,
    (memberToDocument spec).Settles (memberToDocument spec)
  | ⟨key, description, args, flags⟩ => by
    refine settles_object ?_
    simp only [List.forall_mem_append, List.forall_mem_cons]
    exact ⟨⟨⟨settles_text _, settles_text _, by simp⟩,
      listField_settles (ArgSpec.list_settles args)⟩,
        listField_settles (settles_list (listToDocuments_settle flags))⟩

theorem listToDocuments_settle : ∀ es : List FlagEntry, ∀ d ∈ listToDocuments es, d.Settles d
  | [] => by simp [listToDocuments]
  | e :: es => by
    rw [listToDocuments, List.forall_mem_cons]
    exact ⟨toDocument_settles e, listToDocuments_settle es⟩

theorem membersToDocuments_settle : ∀ specs : List FlagSpec,
    ∀ d ∈ membersToDocuments specs, d.Settles d
  | [] => by simp [membersToDocuments]
  | spec :: specs => by
    rw [membersToDocuments, List.forall_mem_cons]
    exact ⟨memberToDocument_settles spec, membersToDocuments_settle specs⟩

end

section Slots

variable {policy : Policy} {key description : String} {args : List ArgSpec} {flags : List FlagEntry}

theorem slots?_flag (h : d.Settles (toDocument (.flag policy ⟨key, description, args, flags⟩))) :
    ∃ k p t a f, d.slots? .settled true flagNames = some [some k, some p, some t, a, f] ∧
      k.val.Settles (.text key) ∧ p.val.Settles policy.toDocument ∧
      t.val.Settles (.text description) ∧
      SlotFor a (List.lookup "args" (listField "args" (args.map ArgSpec.toDocument))) ∧
      SlotFor f (List.lookup "flags" (listField "flags" (listToDocuments flags))) := by
  obtain ⟨slots, hslots, hrel⟩ := Settles.slots? h .settled true
    (show flagNames.Nodup by decide) (nested_sublist _ _ _)
  replace hrel : List.Forall₂ SlotFor slots [some (.text key), some policy.toDocument,
      some (.text description), List.lookup "args" (listField "args" (args.map ArgSpec.toDocument)),
      List.lookup "flags" (listField "flags" (listToDocuments flags))] := by
    simpa [flagNames, List.lookup_append, List.lookup_cons, lookup_listField_of_ne] using hrel
  obtain _ | ⟨⟨hk⟩, _ | ⟨⟨hp⟩, _ | ⟨⟨ht⟩, _ | ⟨ha, _ | ⟨hf, ⟨⟩⟩⟩⟩⟩⟩ := hrel
  exact ⟨_, _, _, _, _, hslots, hk, hp, ht, ha, hf⟩

theorem slots?_member (h : d.Settles (memberToDocument ⟨key, description, args, flags⟩)) :
    ∃ k t a f, d.slots? .settled true memberNames = some [some k, some t, a, f] ∧
      k.val.Settles (.text key) ∧ t.val.Settles (.text description) ∧
      SlotFor a (List.lookup "args" (listField "args" (args.map ArgSpec.toDocument))) ∧
      SlotFor f (List.lookup "flags" (listField "flags" (listToDocuments flags))) := by
  obtain ⟨slots, hslots, hrel⟩ := Settles.slots? h .settled true
    (show memberNames.Nodup by decide) (nested_sublist _ _ _)
  replace hrel : List.Forall₂ SlotFor slots [some (.text key), some (.text description),
      List.lookup "args" (listField "args" (args.map ArgSpec.toDocument)),
      List.lookup "flags" (listField "flags" (listToDocuments flags))] := by
    simpa [memberNames, List.lookup_append, List.lookup_cons, lookup_listField_of_ne] using hrel
  obtain _ | ⟨⟨hk⟩, _ | ⟨⟨ht⟩, _ | ⟨ha, _ | ⟨hf, ⟨⟩⟩⟩⟩⟩ := hrel
  exact ⟨_, _, _, _, hslots, hk, ht, ha, hf⟩

theorem slots?_group {policy : Policy} {members : List FlagSpec}
    (h : d.Settles (toDocument (.group policy members))) :
    ∃ p m, d.slots? .settled true groupNames = some [some p, some m] ∧
      p.val.Settles policy.toDocument ∧
      m.val.Settles (.list (membersToDocuments members)) := by
  obtain ⟨slots, hslots, hrel⟩ := Settles.slots? h .settled true
    (show groupNames.Nodup by decide) (List.Sublist.refl _)
  change List.Forall₂ _ slots [some _, some _] at hrel
  obtain _ | ⟨⟨hp⟩, _ | ⟨⟨hm⟩, ⟨⟩⟩⟩ := hrel
  exact ⟨_, _, hslots, hp, hm⟩

end Slots

/-- The arguments and entries in the slots of a flag or a member. -/
theorem nested_settles {args : List ArgSpec} {flags : List FlagEntry} {a f : Option (Part d)}
    (hfit : args.all ArgSpec.fits = true)
    (hread : ∀ d : Document, d.Settles (.list (listToDocuments flags)) →
      listOfDocument? d = some flags)
    (ha : SlotFor a (List.lookup "args" (listField "args" (args.map ArgSpec.toDocument))))
    (hf : SlotFor f (List.lookup "flags" (listField "flags" (listToDocuments flags)))) :
    ∃ as fs, a.mapM (fun p => ArgSpec.listOfDocument? .settled p.val) = some as ∧
      as.getD [] = args ∧ f.mapM (fun p => listOfDocument? p.val) = some fs ∧
        fs.getD [] = flags := by
  obtain ⟨as, has, hargs⟩ := exists_mapM_listField ha
    (fun _ hd => ArgSpec.listOfDocument?_settles .settled hfit hd) (by simp)
  obtain ⟨fs, hfs, hflags⟩ := exists_mapM_listField hf hread
    (by cases flags <;> simp [listToDocuments])
  exact ⟨as, fs, has, hargs, hfs, hflags⟩

mutual

theorem ofDocument?_settles : ∀ (e : FlagEntry), e.fits = true → ∀ (d : Document),
    d.Settles e.toDocument → ofDocument? d = some e
  | .flag policy ⟨key, description, args, flags⟩, he, d, h => by
    rw [fits, FlagSpec.fits, Bool.and_eq_true] at he
    -- an entry is tried as a group first, which has no field for a key
    have hgroup : asGroup? d = none := by
      rw [asGroup?, Settles.slots?_of_not_mem h (by decide)]
      rfl
    obtain ⟨k, p, t, a, f, hslots, hk, hp, ht, ha, hf⟩ := slots?_flag h
    obtain ⟨as, fs, has, hargs, hfs, hflags⟩ :=
      nested_settles he.1 (listOfDocument?_settles flags he.2) ha hf
    rw [ofDocument?, hgroup, asFlag?]
    simp only [hslots, Option.bind_eq_bind, Option.bind_some, Option.mapM_some, hk.text?,
      Policy.ofDocument?_settles hp, ht.text?, has, hfs, hargs, hflags]
    rfl
  | .group policy members, he, d, h => by
    rw [fits] at he
    obtain ⟨p, m, hslots, hp, hm⟩ := slots?_group h
    have hmembers : membersOfDocument? m.val = some members := by
      obtain ⟨ds, hd, hds⟩ := hm.of_list
      rw [membersOfDocument?, hd]
      exact Document.items?_mapM (members_settle members he ds hds)
    rw [ofDocument?, asGroup?]
    simp only [hslots, Option.bind_eq_bind, Option.bind_some, Policy.ofDocument?_settles hp,
      hmembers]
    rfl

theorem memberOfDocument?_settles : ∀ (spec : FlagSpec), spec.fits = true → ∀ (d : Document),
    d.Settles (memberToDocument spec) → memberOfDocument? d = some spec
  | ⟨key, description, args, flags⟩, hs, d, h => by
    rw [FlagSpec.fits, Bool.and_eq_true] at hs
    obtain ⟨k, t, a, f, hslots, hk, ht, ha, hf⟩ := slots?_member h
    obtain ⟨as, fs, has, hargs, hfs, hflags⟩ :=
      nested_settles hs.1 (listOfDocument?_settles flags hs.2) ha hf
    rw [memberOfDocument?]
    simp only [hslots, Option.bind_eq_bind, Option.bind_some, Option.mapM_some, hk.text?, ht.text?,
      has, hfs, hargs, hflags]
    rfl

theorem listOfDocument?_settles : ∀ (es : List FlagEntry), allFit es = true → ∀ (d : Document),
    d.Settles (.list (listToDocuments es)) → listOfDocument? d = some es
  | es, hes, d, h => by
    obtain ⟨ds, rfl, hds⟩ := h.of_list
    rw [listOfDocument?]
    exact Document.items?_mapM (entries_settle es hes ds hds)

theorem entries_settle : ∀ (es : List FlagEntry), allFit es = true → ∀ (ds : List Document),
    List.Forall₂ Settles ds (listToDocuments es) →
      List.Forall₂ (fun d e => ofDocument? d = some e) ds es
  | [], _, [], _ => .nil
  | e :: es, hes, d :: ds, .cons hd hds => by
    rw [allFit, Bool.and_eq_true] at hes
    exact .cons (ofDocument?_settles e hes.1 d hd) (entries_settle es hes.2 ds hds)

theorem members_settle : ∀ (specs : List FlagSpec), FlagSpec.allFit specs = true →
    ∀ (ds : List Document), List.Forall₂ Settles ds (membersToDocuments specs) →
      List.Forall₂ (fun d spec => memberOfDocument? d = some spec) ds specs
  | [], _, [], _ => .nil
  | spec :: specs, hs, d :: ds, .cons hd hds => by
    rw [FlagSpec.allFit, Bool.and_eq_true] at hs
    exact .cons (memberOfDocument?_settles spec hs.1 d hd) (members_settle specs hs.2 ds hds)

end

end FlagEntry

/-! ## Grammars -/

namespace Grammar

def fits (g : Grammar) : Bool :=
  g.args.all ArgSpec.fits && FlagEntry.allFit g.flags

theorem toDocument_settles (g : Grammar) : g.toDocument.Settles g.toDocument := by
  refine settles_object ?_
  simp only [List.forall_mem_append]
  refine ⟨⟨⟨?_, by simpa using ⟨rfl, rfl⟩⟩, listField_settles (ArgSpec.list_settles g.args)⟩,
    listField_settles (settles_list (FlagEntry.listToDocuments_settle g.flags))⟩
  cases g.program with
  | none => simp
  | some p => simpa using settles_text p

/-- The entries of the root are read from what they settle to. -/
theorem entries_settle : ∀ (es : List FlagEntry), FlagEntry.allFit es = true →
    ∀ (ds : List Document), List.Forall₂ Settles ds (FlagEntry.listToDocuments es) →
      List.Forall₂ (fun d e => d.settle.bind FlagEntry.ofDocument? = some e) ds es
  | [], _, [], _ => .nil
  | e :: es, hes, d :: ds, .cons hd hds => by
    rw [FlagEntry.allFit, Bool.and_eq_true] at hes
    refine .cons ?_ (entries_settle es hes.2 ds hds)
    rw [hd.settle, Option.bind_some]
    exact FlagEntry.ofDocument?_settles e hes.1 _ e.toDocument_settles

theorem entriesOfDocument?_settles {es : List FlagEntry} (hes : FlagEntry.allFit es = true)
    (h : d.Settles (.list (FlagEntry.listToDocuments es))) : entriesOfDocument? d = some es := by
  obtain ⟨ds, rfl, hds⟩ := h.of_list
  exact Document.items?_mapM (entries_settle es hes ds hds)

theorem ofDocument?_settles {g : Grammar} (hg : g.fits = true) (h : d.Settles g.toDocument) :
    ofDocument? rules d = some g := by
  rw [fits, Bool.and_eq_true] at hg
  have hhead : (List.map (·.1) ((g.program.map fun p => ("program", Document.text p)).toList ++
      [("help", Document.bool g.help)]) ++ ["args", "flags"]).Sublist fieldNames := by
    cases g.program with
    | none => exact List.sublist_cons_self _ _
    | some p => exact List.Sublist.refl _
  obtain ⟨slots, hslots, hrel⟩ := Settles.slots? h rules true
    (show fieldNames.Nodup by decide) ((nested_sublist _ _ _).trans hhead)
  replace hrel : List.Forall₂ SlotFor slots [g.program.map .text, some (.bool g.help),
      List.lookup "args" (listField "args" (g.args.map ArgSpec.toDocument)),
      List.lookup "flags" (listField "flags" (FlagEntry.listToDocuments g.flags))] := by
    cases hp : g.program <;>
    simpa [hp, fieldNames, List.lookup_append, List.lookup_cons, lookup_listField_of_ne] using hrel
  obtain _ | ⟨hprogram, _ | ⟨⟨hhelp⟩, _ | ⟨ha, _ | ⟨hf, ⟨⟩⟩⟩⟩⟩ := hrel
  obtain ⟨p, hp, hjoin⟩ := exists_mapM_of_rel (b := g.program) Document.textOrNull?
    Option.join hprogram
    (fun v hv d hd => by
      obtain ⟨s, hs, rfl⟩ := Option.map_eq_some_iff.1 hv
      exact ⟨some s, hd.textOrNull?, hs.symm⟩)
    (fun hnone => (Option.map_eq_none_iff.1 hnone).symm)
  obtain ⟨as, has, hargs⟩ := exists_mapM_listField ha
    (fun _ hd => ArgSpec.listOfDocument?_settles rules hg.1 hd) (by simp)
  obtain ⟨fs, hfs, hflags⟩ := exists_mapM_listField hf
    (fun _ hd => entriesOfDocument?_settles hg.2 hd)
    (by cases g.flags <;> simp [FlagEntry.listToDocuments])
  unfold ofDocument?
  simp only [hslots, Option.bind_eq_bind, Option.bind_some, Option.mapM_some, hhelp.bool?, hp,
    has, hfs, hjoin, hargs, hflags]
  rfl

/-- A grammar comes back from its own document, from whatever settles to that, and so from its text
if the notation can read back what it wrote. -/
theorem ofDocument?_toDocument (g : Grammar) (hg : g.fits = true) :
    (∀ f : Format, ofDocument? f.rules g.toDocument = some g) ∧
      (∀ (f : Format) (d : Document), d.Settles g.toDocument → ofDocument? f.rules d = some g) ∧
      ∀ (f : Format) (d : Document), f.read? (g.toText f) = some d → d.Settles g.toDocument →
        ofText f (g.toText f) = .ok g := by
  refine ⟨fun f => ofDocument?_settles hg g.toDocument_settles,
    fun f d h => ofDocument?_settles hg h, fun f d hread h => ?_⟩
  rw [ofText, Format.decode, hread, Option.bind_some, ofDocument?_settles hg h]

/-- A grammar with every kind of converter, and flags inside flags. -/
def travel : Grammar where
  program := some "travel"
  help := true
  args := [⟨"times", .optional, "How often.",
    .unsigned ⟨some 1, some 18446744073709551615, true, false⟩⟩]
  flags := [.flag .mandatory ⟨"by", "",
    [⟨"speed", .mandatory, "In km/h.", .number ⟨some 0.5, none, false, true⟩⟩],
    [.group .optional [
      ⟨"train", "On rails.", [⟨"class", .mandatory, "", .choice ["1", "2"]⟩], []⟩,
      ⟨"car", "", [], [.flag .optional ⟨"fuel", "",
        [⟨"left", .optional, "", .integer ⟨none, some (-1), true, true⟩⟩,
          ⟨"bill", .mandatory, "", .existingFile⟩, ⟨"maps", .mandatory, "", .existingDirectory⟩,
          ⟨"note", .mandatory, "", .text⟩], [.group .mandatory []]⟩]⟩]]⟩]

theorem travel_comes_back : travel.fits = true ∧
    ∀ f : Format, ofDocument? f.rules travel.toDocument = some travel := by
  have h : travel.fits = true := by decide
  exact ⟨h, (ofDocument?_toDocument travel h).1⟩

end Grammar

end CommandGrammar
