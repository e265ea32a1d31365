import RepoManifest.Proofs.Value.Plain
import RepoManifest.Yaml.Document

/-!
# Documents are plain data

Whatever bytes stand for, it is plain data. The invariant goes up the tree of nodes: what a node
stands for in each of its parts is plain if that holds of the nodes inside it and of the names given
before it.
-/

namespace RepoManifest.Yaml

/-! ## Partial outcomes -/

section

variable {α β : Type} {P : β → Prop} {Q : α → Prop}

/-- What holds of an outcome, if there is one. -/
def Yields (P : α → Prop) (o : Option α) : Prop := ∀ a, o = some a → P a

/-- Nothing holds of no outcome. -/
theorem yields_none : Yields P none := fun _ h ↦ (nomatch h)

/-- A single outcome. -/
theorem yields_some {b : β} (h : P b) : Yields P (some b) := by
  rintro _ ⟨⟩
  exact h

/-- An outcome under a condition. -/
theorem yields_ite {c : Prop} [Decidable c] {o o' : Option β} (h : Yields P o)
    (h' : Yields P o') : Yields P (if c then o else o') := by
  split
  · exact h
  · exact h'

/-- An outcome that is taken further, with what is known of it. -/
theorem yields_bind_of {o : Option α} {f : α → Option β} (ho : Yields Q o)
    (hf : ∀ a, Q a → Yields P (f a)) : Yields P (o.bind f) := by
  intro b hb
  obtain ⟨a, ha, hfa⟩ := Option.bind_eq_some_iff.mp hb
  exact hf a (ho a ha) b hfa

/-- An outcome that is taken further, whatever it is. -/
theorem yields_bind {o : Option α} {f : α → Option β} (h : ∀ a, Yields P (f a)) :
    Yields P (o.bind f) :=
  yields_bind_of (fun _ _ ↦ trivial) fun a (_ : True) ↦ h a

/-- An outcome that is changed to something, whatever it is. -/
theorem yields_map {o : Option α} {f : α → β} (h : ∀ a, P (f a)) : Yields P (o.map f) := by
  rw [Option.map_eq_bind]
  exact yields_bind fun a ↦ yields_some (h a)

/-- An outcome that is changed, with what is known of it. -/
theorem yields_map_of {o : Option α} {f : α → β} (ho : Yields Q o) (hf : ∀ a, Q a → P (f a)) :
    Yields P (o.map f) := by
  intro b hb
  obtain ⟨a, ha, rfl⟩ := Option.map_eq_some_iff.mp hb
  exact hf a (ho a ha)

/-- Outcomes of all items. -/
theorem yields_mapM {f : α → Option β} {items : List α} (h : ∀ a ∈ items, Yields P (f a)) :
    Yields (fun found : List β ↦ ∀ b ∈ found, P b) (items.mapM f) := by
  induction items with
  | nil => exact yields_some fun _ hb ↦ absurd hb List.not_mem_nil
  | cons a rest ih =>
    obtain ⟨ha, hrest⟩ := List.forall_mem_cons.mp h
    rw [List.mapM_cons]
    exact yields_bind_of ha fun b hb ↦ yields_bind_of (ih hrest) fun found hfound ↦
      yields_some (List.forall_mem_cons.mpr ⟨hb, hfound⟩)

/-- What each step keeps holds of the outcome of all steps. -/
theorem yields_foldlM {step : β → α → Option β} {items : List α} {start : β} (hstart : P start)
    (hstep : ∀ b, P b → ∀ a ∈ items, Yields P (step b a)) :
    Yields P (items.foldlM step start) := by
  induction items generalizing start with
  | nil => exact yields_some hstart
  | cons a rest ih =>
    rw [List.foldlM_cons]
    refine yields_bind_of (hstep start hstart a (List.mem_cons_self ..)) fun b hb ↦ ?_
    exact ih hb fun b hb a ha ↦ hstep b hb a (List.mem_cons_of_mem _ ha)

end

/-! ## Scalars -/

/-- The outcome of a partial reading is plain, if there is one. -/
abbrev YieldsPlain (o : Option Value) : Prop := Yields (fun v ↦ v.isPlain = true) o

/-- The outcome of a partial reading has plain entries, if there is one. -/
abbrev YieldsPlainEntries (o : Option (List (Value × Value))) : Prop :=
  Yields (fun entries ↦ ∀ entry ∈ entries, Value.PlainEntry entry) o

/-- A day or a point in time is plain. -/
theorem yieldsPlain_timestamp? (text : List Char) : YieldsPlain (timestamp? text) := by
  unfold timestamp?
  refine yields_bind fun _ ↦ yields_bind fun _ ↦ yields_bind fun _ ↦ yields_bind fun _ ↦
    yields_bind fun _ ↦ yields_ite ?_ ?_
  · exact yields_bind fun _ ↦ yields_some rfl
  · exact yields_bind fun _ ↦ yields_bind fun _ ↦ yields_bind fun _ ↦ yields_bind fun _ ↦
      yields_bind fun _ ↦ yields_bind fun _ ↦ yields_bind fun _ ↦ yields_bind fun _ ↦
      yields_bind fun _ ↦ yields_bind fun _ ↦ yields_bind fun _ ↦ yields_some rfl

/-- A scalar of any type is plain. -/
theorem yieldsPlain_scalarValue? (version : Version) (type : ScalarType) (text : List Char) :
    YieldsPlain (scalarValue? version type text) := by
  unfold scalarValue?
  split
  · exact yields_some rfl
  · exact yields_map fun _ ↦ rfl
  · exact yields_map fun _ ↦ rfl
  · exact yields_map fun _ ↦ rfl
  · exact yields_some rfl
  · exact yieldsPlain_timestamp? text
  · exact yields_none
  · exact yields_none

namespace Meaning

/-- What a node stands for is plain in each part that it can play. -/
structure Plain (m : Meaning) : Prop where
  value : YieldsPlain m.value
  entries : YieldsPlainEntries m.entries
  only : Yields Value.PlainEntry m.only

/-- The value of a text under a tag is plain. -/
theorem yieldsPlain_valueOfText? (version : Version) (tag : String) (text : List Char) :
    YieldsPlain (valueOfText? version tag text) := by
  simp only [valueOfText?]
  split
  · exact yields_map fun _ ↦ rfl
  · cases hfound : List.findSome? (fun type : ScalarType ↦
        if tag = standardTag type.name then some (scalarValue? version type text) else none)
        [.text, .bool, .float, .int, .null, .timestamp] with
    | none => exact yields_none
    | some o =>
      obtain ⟨type, _, htype⟩ := List.exists_of_findSome?_eq_some hfound
      rw [Option.ite_none_right_eq_some] at htype
      obtain rfl := Option.some.inj htype.2
      exact yieldsPlain_scalarValue? version type text

/-- Nothing is plain. -/
theorem plain_null : null.Plain := ⟨yields_some rfl, yields_none, yields_none⟩

/-- A scalar is plain. -/
theorem yields_ofScalar? (version : Version) (label : Label) (text : String) ( isPlain : Bool) :
    Yields Plain (ofScalar? version label text isPlain) := by
  unfold ofScalar?
  exact yields_bind fun tag ↦
    yields_some ⟨yieldsPlain_valueOfText? version tag text.toList, yields_none, yields_none⟩

/-! ## Collections -/

/-- A plain value is plain as a key. -/
theorem yieldsPlain_keyOf? {v : Value} (h : v.isPlain = true) : YieldsPlain (keyOf? v) := by
  simp only [keyOf?]
  refine yields_ite (yields_some ?_) yields_none
  split
  · rw [Value.isPlain_tuple]
    exact Value.isPlain_list.mp h
  · exact h

/-- Distinct entries among plain ones are plain. -/
theorem yieldsPlain_distinctEntries? {pairs : List (Value × Value)}
    (h : ∀ entry ∈ pairs, Value.PlainEntry entry) :
    YieldsPlainEntries (distinctEntries? pairs) := by
  refine yields_foldlM (fun _ hmem ↦ absurd hmem List.not_mem_nil) fun entries hentries ⟨k, v⟩
    hentry ↦ yields_ite yields_none (yields_some fun e he ↦ ?_)
  rcases List.mem_append.mp he with hold | hnew
  · exact hentries e hold
  · obtain rfl := List.mem_singleton.mp hnew
    exact h _ hentry

/-- The value of a sequence of plain items is plain. -/
theorem yieldsPlain_valueOfItems? {tag : String} {items : List Meaning}
    (h : ∀ m ∈ items, m.Plain) : YieldsPlain (valueOfItems? tag items) := by
  have honly := yields_mapM fun m hm ↦ (h m hm).only
  unfold valueOfItems?
  split
  · exact yields_map_of (yields_mapM fun m hm ↦ (h m hm).value) fun _ ↦ Value.isPlain_list.mpr
  · split
    · exact yields_bind_of honly fun pairs hpairs ↦ yields_ite
        (yields_map_of (yieldsPlain_distinctEntries? hpairs) fun _ ↦ Value.isPlain_map.mpr)
        yields_none
    · split
      · refine yields_map_of honly fun pairs hpairs ↦ Value.isPlain_list.mpr fun v hv ↦ ?_
        obtain ⟨⟨k, w⟩, hmem, rfl⟩ := List.mem_map.mp hv
        obtain ⟨hk, hw⟩ := hpairs _ hmem
        rw [Value.isPlain_tuple, List.forall_mem_cons, List.forall_mem_singleton]
        exact ⟨hk, hw⟩
      · exact yields_none

/-- A sequence of plain items is plain. -/
theorem plain_ofItems (label : Label) {items : List Meaning} (h : ∀ m ∈ items, m.Plain) :
    (ofItems label items).Plain := by
  refine ⟨yieldsPlain_valueOfItems? h, ?_, yields_none⟩
  have hparts := yields_mapM (P := fun part ↦ ∀ entry ∈ part, Value.PlainEntry entry)
    (f := fun m : Meaning ↦ if m.isMapping then m.entries else none) fun m hm ↦
      yields_ite (h m hm).entries yields_none
  refine yields_bind_of hparts fun parts hparts ↦ yields_some fun entry hentry ↦ ?_
  obtain ⟨part, hpart, hmem⟩ := List.mem_flatten.mp hentry
  exact hparts part (List.mem_reverse.mp hpart) entry hmem

/-- Pairs of plain keys and plain values. -/
def PlainPairs (pairs : List (Meaning × Meaning)) : Prop :=
  ∀ pair ∈ pairs, pair.1.Plain ∧ pair.2.Plain

/-- The entries that are merged into a mapping are plain. -/
theorem yieldsPlain_mergedEntries? {pairs : List (Meaning × Meaning)} (h : PlainPairs pairs) :
    YieldsPlainEntries (mergedEntries? pairs) := by
  refine yields_foldlM (fun _ hmem ↦ absurd hmem List.not_mem_nil) fun merged hmerged ⟨k, v⟩
    hpair ↦ ?_
  exact yields_ite (yields_ite (h _ hpair).2.entries yields_none) (yields_some hmerged)

/-- A key of a mapping is plain. -/
theorem yieldsPlain_keyValue? {key : Meaning} (h : key.Plain) : YieldsPlain (keyValue? key) := by
  exact yields_ite (yields_map fun _ ↦ rfl) h.value

/-- The entries of a mapping that are not merged are plain. -/
theorem yieldsPlain_ownEntries? {pairs : List (Meaning × Meaning)} (h : PlainPairs pairs) :
    YieldsPlainEntries (ownEntries? pairs) := by
  refine yields_mapM fun pair hpair ↦ ?_
  obtain ⟨hkey, hvalue⟩ := h pair (List.mem_filter.mp hpair).1
  exact yields_bind_of (yieldsPlain_keyValue? hkey) fun k hk ↦
    yields_bind_of (yieldsPlain_keyOf? hk) fun key hkey ↦
      yields_bind_of hvalue.value fun v hv ↦ yields_some ⟨hkey, hv⟩

/-- The value of a mapping of plain pairs is plain. -/
theorem yieldsPlain_valueOfPairs? {version : Version} {tag : String}
    {pairs : List (Meaning × Meaning)} (h : PlainPairs pairs) :
    YieldsPlain (valueOfPairs? version tag pairs) := by
  have hentries : YieldsPlainEntries (do
      let merged ← mergedEntries? pairs
      let own ← ownEntries? pairs
      if merged.isEmpty then distinctEntries? own else some (Value.ofPairs (merged ++ own))) := by
    refine yields_bind_of (yieldsPlain_mergedEntries? h) fun merged hmerged ↦
      yields_bind_of (yieldsPlain_ownEntries? h) fun own hown ↦ ?_
    split
    · exact yieldsPlain_distinctEntries? hown
    · refine yields_some (Value.plain_ofPairs fun entry hentry ↦ ?_)
      exact (List.mem_append.mp hentry).elim (hmerged entry) (hown entry)
  simp only [valueOfPairs?]
  split
  · exact yields_map_of hentries fun _ ↦ Value.isPlain_map.mpr
  · split
    · refine yields_map_of hentries fun entries hplain ↦ Value.isPlain_set.mpr fun v hv ↦ ?_
      obtain ⟨entry, hmem, rfl⟩ := List.mem_map.mp hv
      exact (hplain entry hmem).1
    · split
      · exact yields_none
      · exact yields_bind fun text ↦ yieldsPlain_valueOfText? version tag text

/-- A mapping of plain pairs is plain. -/
theorem plain_ofPairs (version : Version) (label : Label) {pairs : List (Meaning × Meaning)}
    (h : PlainPairs pairs) : (ofPairs version label pairs).Plain := by
  refine ⟨yieldsPlain_valueOfPairs? h, ?_, ?_⟩
  · refine yields_bind_of (yieldsPlain_mergedEntries? h) fun merged hmerged ↦
      yields_bind_of (yieldsPlain_ownEntries? h) fun own hown ↦ yields_some fun entry hentry ↦ ?_
    exact (List.mem_append.mp hentry).elim (hmerged entry) (hown entry)
  · simp only [ofPairs]
    split
    · next k v =>
      obtain ⟨hkey, hvalue⟩ := h (k, v) (List.mem_singleton_self _)
      exact yields_bind_of hkey.value fun _ hk ↦
        yields_bind_of hvalue.value fun _ hv ↦ yields_some ⟨hk, hv⟩
    · exact yields_none

end Meaning

/-! ## Trees of nodes -/

namespace Anchors

/-- Every meaning that a name has or had is plain. -/
structure Plain (a : Anchors) : Prop where
  known : ∀ entry ∈ a.known, Yields Meaning.Plain entry.2
  earlier : ∀ entry ∈ a.earlier, Yields Meaning.Plain entry.2

/-- What a name means among plain meanings is plain. -/
theorem yields_lookup {named : List (String × Option Meaning)} {name : String}
    (h : ∀ entry ∈ named, Yields Meaning.Plain entry.2) :
    Yields (Yields Meaning.Plain) (named.lookup name) := by
  intro m hm
  obtain ⟨_, _, rfl, _⟩ := List.lookup_eq_some_iff.mp hm
  exact h (name, m) (by simp)

/-- Giving a name a plain meaning, or none, leaves the names plain. -/
theorem Plain.bind {a : Anchors} (h : a.Plain) (label : Label) {m : Option Meaning}
    (hm : Yields Meaning.Plain m) : (a.bind label m).Plain := by
  unfold Anchors.bind
  split
  · exact ⟨List.forall_mem_cons.mpr ⟨hm, h.known⟩, h.earlier⟩
  · exact h

/-- What an alias stands for is plain, and the names stay plain. -/
theorem yields_find? {a : Anchors} (h : a.Plain) (name : String) :
    Yields (fun r ↦ r.1.Plain ∧ r.2.Plain) (a.find? name) := by
  unfold find?
  split
  · exact yields_none
  · next m hm => exact yields_some ⟨yields_lookup h.known _ hm m rfl, h⟩
  · refine yields_some ⟨?_, h.known, h.earlier⟩
    cases hearlier : a.earlier.lookup name with
    | none => exact Meaning.plain_null
    | some o =>
      cases o with
      | none => exact Meaning.plain_null
      | some m => exact yields_lookup h.earlier _ hearlier m rfl

end Anchors

namespace Node

mutual

/-- A node among plain names is plain, and the names after it are. -/
theorem yields_meaning? (version : Version) :
    ∀ (node : Node) {a : Anchors}, a.Plain →
      Yields (fun r ↦ r.1.Plain ∧ r.2.Plain) (meaning? version node a)
  | .alias name, a, ha => Anchors.yields_find? ha name
  | .scalar label text plain, a, ha => by
    refine yields_bind_of (Meaning.yields_ofScalar? version label text plain) fun m hm ↦ ?_
    exact yields_some ⟨hm, ha.bind label (yields_some hm)⟩
  | .sequence label items, a, ha => by
    refine yields_bind_of (yields_meanings? version items (ha.bind label yields_none)) fun r hr ↦ ?_
    have hm := Meaning.plain_ofItems label hr.1
    exact yields_some ⟨hm, hr.2.bind label (yields_some hm)⟩
  | .mapping label entries, a, ha => by
    refine yields_bind_of (yields_meaningPairs? version entries (ha.bind label yields_none))
      fun r hr ↦ ?_
    have hm := Meaning.plain_ofPairs version label hr.1
    exact yields_some ⟨hm, hr.2.bind label (yields_some hm)⟩

/-- Items among plain names are plain, and the names after them are. -/
theorem yields_meanings? (version : Version) :
    ∀ (items : List Node) {a : Anchors}, a.Plain →
      Yields (fun r ↦ (∀ m ∈ r.1, m.Plain) ∧ r.2.Plain) (meanings? version items a)
  | [], a, ha => yields_some ⟨fun _ hm ↦ absurd hm List.not_mem_nil, ha⟩
  | node :: rest, a, ha => by
    refine yields_bind_of (yields_meaning? version node ha) fun r hr ↦ ?_
    refine yields_bind_of (yields_meanings? version rest hr.2) fun s hs ↦ ?_
    exact yields_some ⟨List.forall_mem_cons.mpr ⟨hr.1, hs.1⟩, hs.2⟩

/-- Entries among plain names are plain, and the names after them are. -/
theorem yields_meaningPairs? (version : Version) :
    ∀ (entries : List (Node × Node)) {a : Anchors}, a.Plain →
      Yields (fun r ↦ Meaning.PlainPairs r.1 ∧ r.2.Plain) (meaningPairs? version entries a)
  | [], a, ha => yields_some ⟨fun _ hm ↦ absurd hm List.not_mem_nil, ha⟩
  | (key, value) :: rest, a, ha => by
    refine yields_bind_of (yields_meaning? version key ha) fun r hr ↦ ?_
    refine yields_bind_of (yields_meaning? version value hr.2) fun s hs ↦ ?_
    refine yields_bind_of (yields_meaningPairs? version rest hs.2) fun t ht ↦ ?_
    exact yields_some ⟨List.forall_mem_cons.mpr ⟨⟨hr.1, hs.1⟩, ht.1⟩, ht.2⟩

end

/-- A document is plain, however often a node inside of itself is unrolled. -/
theorem yields_unrolled? (version : Version) (node : Node) (n : Nat) {a : Anchors} (ha : a.Plain) :
    Yields Meaning.Plain (node.unrolled? version n a) := by
  induction n generalizing a with
  | zero => exact yields_map_of (yields_meaning? version node ha) fun _ hr ↦ hr.1
  | succ n ih =>
    refine yields_bind_of (yields_meaning? version node ha) fun ⟨m, after⟩ hr ↦ ?_
    exact yields_ite (ih ⟨fun _ hm ↦ absurd hm List.not_mem_nil, hr.2.known⟩) (yields_some hr.1)

end Node

/-- What bytes stand for is plain data. -/
theorem isPlain_of_parse? {bytes : List UInt8} {v : Value} (h : parse? bytes = some v) :
    v.isPlain = true := by
  have hnames : ({} : Anchors).Plain :=
    ⟨fun _ hm ↦ absurd hm List.not_mem_nil, fun _ hm ↦ absurd hm List.not_mem_nil⟩
  have htext (text : List Char) : YieldsPlain (valueOfText? text) := by
    unfold valueOfText?
    split
    · exact yields_none
    · refine yields_bind fun _ ↦ yields_bind fun root ↦ ?_
      cases root with
      | none => exact yields_some rfl
      | some node =>
        exact yields_bind_of (Node.yields_unrolled? _ node _ hnames) fun _ hm ↦ hm.value
  exact yields_bind htext v h

end RepoManifest.Yaml
