import RepoManifest.Proofs.Value.Lookup

/-!
# Plain data

A value is plain if it holds no object and no member of an enumerated type, at any depth. Documents
are plain data, and so is every part of one.
-/

namespace RepoManifest.Value

mutual

/-- Whether a value holds no object and no member of an enumerated type. -/
def isPlain : Value → Bool
  | .tuple items | .list items | .set items => arePlain items
  | .map entries => entriesArePlain entries
  | .member _ _ _ | .object _ _ _ => false
  | _ => true

/-- Whether all values of a list are plain. -/
def arePlain : List Value → Bool
  | [] => true
  | v :: rest => isPlain v && arePlain rest

/-- Whether all keys and values of a mapping are plain. -/
def entriesArePlain : List (Value × Value) → Bool
  | [] => true
  | (k, v) :: rest => isPlain k && isPlain v && entriesArePlain rest

end

/-- An entry whose key and value are plain. -/
def PlainEntry (entry : Value × Value) : Prop :=
  entry.1.isPlain = true ∧ entry.2.isPlain = true

/-- The values of a list are plain exactly if each of them is. -/
theorem arePlain_iff {items : List Value} :
    arePlain items = true ↔ ∀ v ∈ items, v.isPlain = true := by
  induction items with
  | nil => simp [arePlain]
  | cons v rest ih => rw [arePlain, Bool.and_eq_true, ih, List.forall_mem_cons]

/-- The entries of a mapping are plain exactly if each of them is. -/
theorem entriesArePlain_iff {entries : List (Value × Value)} :
    entriesArePlain entries = true ↔ ∀ entry ∈ entries, PlainEntry entry := by
  induction entries with
  | nil => simp [entriesArePlain]
  | cons entry rest ih =>
    rw [entriesArePlain, Bool.and_eq_true, Bool.and_eq_true, ih, List.forall_mem_cons]
    rfl

/-- A list is plain exactly if its items are. -/
@[simp] theorem isPlain_list {items : List Value} :
    isPlain (.list items) = true ↔ ∀ v ∈ items, v.isPlain = true := by
  rw [isPlain, arePlain_iff]

/-- A tuple is plain exactly if its items are. -/
@[simp] theorem isPlain_tuple {items : List Value} :
    isPlain (.tuple items) = true ↔ ∀ v ∈ items, v.isPlain = true := by
  rw [isPlain, arePlain_iff]

/-- A set is plain exactly if its items are. -/
@[simp] theorem isPlain_set {items : List Value} :
    isPlain (.set items) = true ↔ ∀ v ∈ items, v.isPlain = true := by
  rw [isPlain, arePlain_iff]

/-- A mapping is plain exactly if its entries are. -/
@[simp] theorem isPlain_map {entries : List (Value × Value)} :
    isPlain (.map entries) = true ↔ ∀ entry ∈ entries, PlainEntry entry := by
  rw [isPlain, entriesArePlain_iff]

/-- What a word finds in plain entries is plain. -/
theorem isPlain_of_get? {entries : List (Value × Value)} {name : String} {v : Value}
    (h : ∀ entry ∈ entries, PlainEntry entry) (hv : get? entries name = some v) :
    v.isPlain = true := by
  obtain ⟨k, _, hmem⟩ := exists_mem_of_get? hv
  exact (h _ hmem).2

/-! ## Mappings written entry by entry -/

/-- Inserting a plain entry into plain entries leaves them plain. -/
theorem plain_insert {entries : List (Value × Value)} {entry : Value × Value}
    (h : ∀ entry ∈ entries, PlainEntry entry) (hentry : PlainEntry entry) :
    ∀ e ∈ insert entries entry.1 entry.2, PlainEntry e := by
  intro e he
  unfold insert at he
  split at he
  · obtain ⟨⟨k, v⟩, hmem, rfl⟩ := List.mem_map.mp he
    obtain ⟨hk, hv⟩ := h _ hmem
    dsimp only at hk hv ⊢
    split
    · exact ⟨hk, hentry.2⟩
    · exact ⟨hk, hv⟩
  · rcases List.mem_append.mp he with hold | hnew
    · exact h e hold
    · obtain rfl := List.mem_singleton.mp hnew
      exact hentry

/-- Inserting plain pairs one by one into plain entries leaves them plain. -/
theorem plain_foldl_insert {pairs entries : List (Value × Value)}
    (h : ∀ entry ∈ pairs, PlainEntry entry) (hentries : ∀ e ∈ entries, PlainEntry e) :
    ∀ e ∈ pairs.foldl (fun entries (k, v) ↦ insert entries k v) entries, PlainEntry e := by
  induction pairs generalizing entries with
  | nil => exact hentries
  | cons entry rest ih =>
    obtain ⟨hentry, hrest⟩ := List.forall_mem_cons.mp h
    exact ih hrest (plain_insert hentries hentry)

/-- A mapping written with plain pairs has plain entries. -/
theorem plain_ofPairs {pairs : List (Value × Value)} (h : ∀ entry ∈ pairs, PlainEntry entry) :
    ∀ e ∈ ofPairs pairs, PlainEntry e :=
  plain_foldl_insert h fun _ hmem ↦ absurd hmem List.not_mem_nil

end RepoManifest.Value
