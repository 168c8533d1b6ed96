import Mathlib.Data.List.Sublists
import Rch.Machine.ItemCodes
import Rch.Proofs.NumbersApart

/-!
# No two items of one code

Nothing but an advisory lock keeps two new items of a type from the same code, and
it is enough, whatever the order of the statements: a code is one past every number
of its series, counted with the series held, so no item on file has it and no other
addition under way.  A code stays with its item, and no later item of the series
gets it or a lower one.

The keys are scanned for under a lock on the slug, and where the slug has no
backslash a scan ends at a key nobody has. It can still be taken before the insert,
by an item of another slug: the number behind one slug may be the end of another.
The slug is a pattern to the scan, so one typed with a backslash may end at a key on
file. The insert refuses it then.

The numbers are counted in doubles, so all this holds while they are below `2 ^ 53`.
-/

namespace Rch.ItemCodes

open Kit

variable {env : ItemEnv} {s s' : ItemMaster} {held held' : List (Lock ItemLock)}

/-! ## The key a scan ends at -/

def candidate (slug : String) (n : ℕ) : ItemKey := if n = 1 then slug else slug ++ toString n

theorem candidate_injective {slug : String} {m n : ℕ} (h : candidate slug m = candidate slug n) :
    m = n := by
  have hdigits : ∀ k : ℕ, (toString k).toList = Nat.toDigits 10 k := fun k => Nat.toList_repr
  have hlonger : ∀ k : ℕ, slug ≠ slug ++ toString k := by
    intro k heq
    have hlist := congrArg String.toList heq
    rw [String.toList_append, hdigits, List.self_eq_append_right] at hlist
    exact Nat.toDigits_ne_nil hlist
  unfold candidate at h
  split at h
  · next hm =>
      split at h
      · next hn => exact hm.trans hn.symm
      · exact absurd h (hlonger n)
  · split at h
    · exact absurd h.symm (hlonger m)
    · have hlist := congrArg String.toList h
      rw [String.toList_append, String.toList_append, hdigits, hdigits,
        List.append_cancel_left_eq] at hlist
      have hread := congrArg (fun l => Nat.ofDigitChars 10 l 0) hlist
      rwa [Nat.ofDigitChars_ten_toDigits, Nat.ofDigitChars_ten_toDigits] at hread

theorem freeKey_of_free {taken : List ItemKey} {slug : String} :
    ∀ {fuel n i : ℕ}, i < fuel → candidate slug (n + i) ∉ taken →
      freeKey taken slug fuel n ∉ taken := by
  intro fuel
  induction fuel with
  | zero =>
      intro n i hi _
      exact absurd hi (Nat.not_lt_zero i)
  | succ fuel ih =>
      intro n i hi hfree
      unfold freeKey
      dsimp only
      by_cases htaken : (if n = 1 then slug else slug ++ toString n) ∈ taken
      · rw [if_pos htaken]
        cases i with
        | zero => exact absurd htaken hfree
        | succ i =>
            rw [show n + (i + 1) = n + 1 + i by omega] at hfree
            exact ih (by omega) hfree
      · rw [if_neg htaken]
        exact htaken

theorem candidate_begins (slug : String) (n : ℕ) :
    slug.toList <+: (candidate slug n).toList := by
  unfold candidate
  split
  · exact List.prefix_rfl
  · rw [String.toList_append]
    exact List.prefix_append _ _

theorem freeKey_begins (taken : List ItemKey) (slug : String) :
    ∀ fuel n, slug.toList <+: (freeKey taken slug fuel n).toList := by
  intro fuel
  induction fuel with
  | zero =>
      intro n
      unfold freeKey
      rw [String.toList_append]
      exact List.prefix_append _ _
  | succ fuel ih =>
      intro n
      unfold freeKey
      dsimp only
      by_cases htaken : (if n = 1 then slug else slug ++ toString n) ∈ taken
      · rw [if_pos htaken]
        exact ih (n + 1)
      · rw [if_neg htaken]
        exact candidate_begins slug n

/-- One key more than there are taken is tried, so one of them is free. -/
theorem newItemKey_untaken (items : Table ItemKey Item) (body : CreateItemBody) :
    newItemKey items body ∉ keysLike items (slugFor body) := by
  intro hin
  have htaken : ∀ i < (keysLike items (slugFor body)).length + 1,
      candidate (slugFor body) (1 + i) ∈ keysLike items (slugFor body) := by
    intro i hi
    by_contra hfree
    exact freeKey_of_free hi hfree hin
  have hnodup : ((List.range ((keysLike items (slugFor body)).length + 1)).map
      fun i => candidate (slugFor body) (1 + i)).Nodup := by
    refine (List.nodup_range).map fun i j hij => ?_
    have heq := candidate_injective hij
    omega
  have hsub : ((List.range ((keysLike items (slugFor body)).length + 1)).map
      fun i => candidate (slugFor body) (1 + i)) ⊆ keysLike items (slugFor body) := by
    intro key hkey
    obtain ⟨i, hi, rfl⟩ := List.mem_map.1 hkey
    exact htaken i (List.mem_range.1 hi)
  have hle := (List.subperm_of_subset hnodup hsub).length_le
  rw [List.length_map, List.length_range] at hle
  omega

/-- The scan looks at every key on file its own could be, where nothing in the slug
takes a sign's meaning away. -/
theorem newItemKey_free (items : Table ItemKey Item) {body : CreateItemBody}
    (hplain : '\\' ∉ (slugFor body).toList) : items.get? (newItemKey items body) = none := by
  rw [Table.get?_eq_none]
  intro hmem
  refine newItemKey_untaken items body (List.mem_filter.2 ⟨hmem, ?_⟩)
  obtain ⟨rest, hrest⟩ := freeKey_begins (keysLike items (slugFor body)) (slugFor body)
    ((keysLike items (slugFor body)).length + 1) 1
  unfold newItemKey
  dsimp only
  rw [← hrest]
  exact Like.like_begun (by decide) hplain rest

/-! ## The code after all of its series -/

/-- The numbers on file are counted exactly. -/
def Below (s : ItemMaster) : Prop :=
  ∀ type, ∀ n ∈ numbersIn (itemCodePrefix type) s.allCodes, n < 2 ^ 53

theorem digitsAfter_code (front : String) (k : ℕ) :
    digitsAfter front (front ++ "-" ++ toString k) = some (Nat.toDigits 10 k) := by
  refine digitsAfter_of ?_ Nat.toDigits_ne_nil
    (List.all_eq_true.2 fun _ => isDigit_toDigits)
  have hdigits : (toString k).toList = Nat.toDigits 10 k := Nat.toList_repr
  rw [String.toList_append, String.toList_append, hdigits, List.append_assoc]
  rfl

/-- A code of another shape is in no series. -/
theorem numbersIn_codesLike (s : ItemMaster) (front : String) :
    numbersIn front (codesLike s front) = numbersIn front s.allCodes := by
  unfold numbersIn codesLike
  rw [List.filterMap_filter]
  congr 1
  refine List.filterMap_congr fun c _ => ?_
  split
  · rfl
  · next hno =>
      cases hds : digitsAfter front c with
      | none => rfl
      | some ds =>
          refine absurd (List.isPrefixOf_iff_prefix.2 ?_) hno
          rw [(digitsAfter_eq hds).1, String.toList_append]
          exact ⟨ds, by rw [List.append_assoc]; rfl⟩

/-- The next code is one past every number of its series on file. -/
theorem nextItemCode_above (h : Below s) (type : ItemType) :
    ∃ k, nextItemCode type (codesLike s (itemCodePrefix type)) =
        itemCodePrefix type ++ "-" ++ toString k ∧
      ∀ n ∈ numbersIn (itemCodePrefix type) s.allCodes, n < k := by
  have hfirst : (itemCodeSeries type).2 ≤ 2 ^ 53 := by cases type <;> decide
  have hlow := h type
  rw [← numbersIn_codesLike] at hlow ⊢
  obtain ⟨k, hfold, hk, -, hall⟩ := nextCode_foldl (itemCodePrefix type)
    (codesLike s (itemCodePrefix type)) _ hfirst hlow
  refine ⟨k, ?_, hall⟩
  rw [← Whole.text_of_le hk, ← hfold]
  rfl

theorem nextItemCode_unused (h : Below s) (type : ItemType) :
    nextItemCode type (codesLike s (itemCodePrefix type)) ∉ s.allCodes := by
  obtain ⟨k, hnext, hall⟩ := nextItemCode_above h type
  intro hmem
  have hlt := hall _ (mem_numbersIn hmem (hnext ▸ digitsAfter_code _ k))
  rw [Nat.ofDigitChars_ten_toDigits] at hlt
  exact absurd hlt (Nat.lt_irrefl k)

/-- Two series have no code in common. -/
theorem not_of_series {type type' : ItemType} (h : itemCodePrefix type ≠ itemCodePrefix type')
    (k : ℕ) : (itemCodePrefix type ++ "-").toList.isPrefixOf
      (itemCodePrefix type' ++ "-" ++ toString k).toList = false := by
  have hlist : (itemCodePrefix type' ++ "-" ++ toString k).toList =
      (itemCodePrefix type').toList ++ ("-".toList ++ (toString k).toList) := by
    rw [String.toList_append, String.toList_append, List.append_assoc]
  rw [hlist]
  cases type <;> cases type' <;> first | exact absurd rfl h | rfl

/-! ## What an open addition holds -/

/-- Its key. A scan that missed nothing found it free, and what has taken it since
was slugged otherwise. -/
structure Keyed (env : ItemEnv) (s : ItemMaster) (held : List (Lock ItemLock)) (a : CreateAsk)
    (key : ItemKey) : Prop where
  lock : ⟨env.slugLock (slugFor a.body), .update⟩ ∈ held
  other : '\\' ∉ (slugFor a.body).toList →
    ∀ slug, s.addedAs.get? key = some slug → slug ≠ slugFor a.body

/-- Its code, still the next one of the series. -/
structure Coded (env : ItemEnv) (s : ItemMaster) (held : List (Lock ItemLock)) (a : CreateAsk)
    (code : String) : Prop where
  lock : ⟨env.seriesLock (itemCodePrefix a.body.type), .update⟩ ∈ held
  next : code = nextItemCode a.body.type (codesLike s (itemCodePrefix a.body.type))

/-- An item about to be stored. -/
structure Lands (env : ItemEnv) (s : ItemMaster) (held : List (Lock ItemLock)) (a : CreateAsk)
    (key : ItemKey) (code : String) : Prop where
  keyed : Keyed env s held a key
  coded : Coded env s held a code
  item : ⟨.item key, .update⟩ ∈ held
  free : s.items.get? key = none

structure Kept (s : ItemMaster) : Prop extends s.CodesApart where
  added : ∀ key slug, s.addedAs.get? key = some slug → (s.items.get? key).isSome = true

section Shape

variable (env : ItemEnv) (s : ItemMaster) (held : List (Lock ItemLock))
variable (write : ItemMaster → ItemMaster)

def CreateShaped (a : CreateAsk) : CreateAt → Prop
  | .begun => write = id
  | .slugHeld => ⟨env.slugLock (slugFor a.body), .update⟩ ∈ held ∧ write = fun x => x
  | .keyed key => Keyed env s held a key ∧ write = fun x => x
  | .seriesHeld key => Keyed env s held a key ∧
    ⟨env.seriesLock (itemCodePrefix a.body.type), .update⟩ ∈ held ∧ write = fun x => x
  | .coded key code => Keyed env s held a key ∧ Coded env s held a code ∧ write = fun x => x
  | .inserted key code => Lands env s held a key code ∧ write = addItem a key code

def PatchShaped (key : ItemKey) (body : PatchItemBody) : PatchAt → Prop
  | .begun | .held _ => write = id
  | .written => write = changeItem key body

end Shape

def ItemShaped (env : ItemEnv) (s : ItemMaster) (x : Tx ItemMaster ItemLock ItemTx) : Prop :=
  match x.at_ with
  | .create a p => CreateShaped env s x.held x.write a p
  | .patch key body p => PatchShaped x.write key body p

/-- What one commit writes, and under which locks. -/
inductive ItemCommit (env : ItemEnv) (s : ItemMaster) (held : List (Lock ItemLock)) :
    ItemMaster → Prop
  | added (a : CreateAsk) (key : ItemKey) (code : String)
      (lands : Lands env s held a key code) : ItemCommit env s held (addItem a key code s)
  | changed (key : ItemKey) (body : PatchItemBody) :
      ItemCommit env s held (changeItem key body s)

/-! ## Statement by statement -/

section Runs

variable {write : ItemMaster → ItemMaster} {st : ItemStmt}

theorem Keyed.mono {a : CreateAsk} {key : ItemKey} (h : Keyed env s held a key)
    (hsub : held ⊆ held') : Keyed env s held' a key := ⟨hsub h.lock, h.other⟩

theorem Coded.mono {a : CreateAsk} {code : String} (h : Coded env s held a code)
    (hsub : held ⊆ held') : Coded env s held' a code := ⟨hsub h.lock, h.next⟩

theorem CreateShaped.runs (hi : Kept s) {a : CreateAsk} {p : CreateAt}
    (h : CreateShaped env s held write a p) (hs : createStmt env (write s) a p = some st) :
    ItemShaped env s ⟨st.next, st.locks ++ held, st.write ∘ write⟩ := by
  cases p with
  | begun =>
      obtain rfl : write = id := h
      simp only [createStmt, Option.ite_none_right_eq_some] at hs
      obtain ⟨-, hst⟩ := hs
      cases hst
      exact ⟨List.mem_cons_self, rfl⟩
  | slugHeld =>
      obtain ⟨hkey, rfl⟩ := h
      cases hs
      refine ⟨⟨hkey, fun hplain slug hslug => ?_⟩, rfl⟩
      have htaken := hi.added _ slug hslug
      rw [newItemKey_free s.items hplain] at htaken
      cases htaken
  | keyed key =>
      obtain ⟨hkeyed, rfl⟩ := h
      cases hs
      exact ⟨hkeyed.mono (List.subset_cons_self _ _), List.mem_cons_self, rfl⟩
  | seriesHeld key =>
      obtain ⟨hkeyed, hseries, rfl⟩ := h
      cases hs
      exact ⟨hkeyed, ⟨hseries, rfl⟩, rfl⟩
  | coded key code =>
      obtain ⟨hkeyed, hcoded, rfl⟩ := h
      simp only [createStmt, Option.ite_none_right_eq_some] at hs
      obtain ⟨⟨-, -, hfree⟩, hst⟩ := hs
      cases hst
      have hsub : held ⊆ [⟨.item key, .update⟩,
          ⟨.name (itemRow a.role a.body).n.toLower, .update⟩] ++ held :=
        List.subset_append_right _ _
      exact ⟨⟨hkeyed.mono hsub, hcoded.mono hsub, List.mem_cons_self, hfree⟩, rfl⟩
  | inserted key code => cases hs

theorem PatchShaped.runs {key : ItemKey} {body : PatchItemBody} {p : PatchAt}
    (h : PatchShaped write key body p) (hs : patchStmt (write s) key body p = some st) :
    ItemShaped env s ⟨st.next, st.locks ++ held, st.write ∘ write⟩ := by
  cases p with
  | begun =>
      obtain ⟨row, -, rfl⟩ := Option.map_eq_some_iff.1 hs
      exact h
  | held row =>
      obtain rfl : write = id := h
      simp only [patchStmt, Option.ite_none_right_eq_some] at hs
      obtain ⟨-, hst⟩ := hs
      cases hst
      rfl
  | written => cases hs

theorem ItemShaped.runs (hi : Kept s) {x : Tx ItemMaster ItemLock ItemTx}
    (h : ItemShaped env s x) (hs : x.at_.stmt env (x.write s) = some st) :
    ItemShaped env s (x.after st) := by
  obtain ⟨t, held, write⟩ := x
  cases t with
  | create a p => exact CreateShaped.runs hi h hs
  | patch key body p => exact PatchShaped.runs h hs

theorem itemShaped_begins {t : ItemTx} (ht : t.starts = true) : ItemShaped env s (.fresh t) := by
  cases t with
  | create a p => cases p <;> first | rfl | cases ht
  | patch key body p => cases p <;> first | rfl | cases ht

theorem ItemShaped.commit {x : Tx ItemMaster ItemLock ItemTx} (h : ItemShaped env s x)
    (hd : x.at_.done = true) : ItemCommit env s x.held (x.write s) := by
  obtain ⟨t, held, write⟩ := x
  cases t with
  | create a p =>
      cases p with
      | inserted key code =>
          obtain ⟨hlands, rfl⟩ : Lands env s held a key code ∧ _ := h
          exact .added a key code hlands
      | _ => cases hd
  | patch key body p =>
      cases p with
      | written =>
          obtain rfl : write = changeItem key body := h
          exact .changed key body
      | _ => cases hd

end Runs

/-! ## What a commit leaves -/

section Commit

variable {a : CreateAsk} {key : ItemKey} {code : String}

theorem Kept.uncoded (h : Kept s) (hfree : s.items.get? key = none) :
    s.codes.get? key = none := by
  have hsame := h.coded key
  rw [hfree] at hsame
  exact Option.not_isSome_iff_eq_none.1 (by rw [← hsame]; decide)

theorem Kept.unadded (h : Kept s) (hfree : s.items.get? key = none) :
    s.addedAs.get? key = none := by
  cases hadded : s.addedAs.get? key with
  | none => rfl
  | some slug =>
      have htaken := h.added key slug hadded
      rw [hfree] at htaken
      cases htaken

theorem codes_addItem (h : Kept s) (hfree : s.items.get? key = none) (k : ItemKey) :
    (addItem a key code s).codes.get? k = if k = key then some code else s.codes.get? k :=
  Table.get?_insert_of_free (h.uncoded hfree) code k

theorem addedAs_addItem (h : Kept s) (hfree : s.items.get? key = none) (k : ItemKey) :
    (addItem a key code s).addedAs.get? k =
      if k = key then some (slugFor a.body) else s.addedAs.get? k :=
  Table.get?_insert_of_free (h.unadded hfree) _ k

theorem items_addItem (hfree : s.items.get? key = none) (k : ItemKey) :
    (addItem a key code s).items.get? k =
      if k = key then some (itemRow a.role a.body) else s.items.get? k :=
  Table.get?_insert_of_free hfree _ k

theorem allCodes_addItem (h : Kept s) (hfree : s.items.get? key = none) :
    (addItem a key code s).allCodes = s.allCodes ++ [code] := by
  obtain ⟨t, ht⟩ := Table.insert?_of_free (h.uncoded hfree) code
  unfold ItemMaster.allCodes addItem
  dsimp only
  rw [ht, Option.getD_some, (Table.insert?_eq_some ht).2, List.map_append]
  rfl

theorem items_changeItem (s : ItemMaster) (key : ItemKey) (body : PatchItemBody) (k : ItemKey) :
    ((changeItem key body s).items.get? k).isSome = (s.items.get? k).isSome :=
  Table.isSome_modify ..

theorem mem_allCodes {k : ItemKey} (h : s.codes.get? k = some code) : code ∈ s.allCodes :=
  List.mem_map.2 ⟨_, Table.get?_eq_some.1 h, rfl⟩

theorem Lands.unused (h : Lands env s held a key code) (hlow : Below s) :
    code ∉ s.allCodes := by
  rw [h.coded.next]
  exact nextItemCode_unused hlow a.body.type

theorem Kept.commit (h : Kept s) (hlow : Below s) (hc : ItemCommit env s held s') : Kept s' := by
  cases hc with
  | added a key code lands =>
      have hcodes : ∀ k, (addItem a key code s).codes.get? k =
          if k = key then some code else s.codes.get? k := codes_addItem h lands.free
      have hnew := lands.unused hlow
      refine ⟨⟨fun k => ?_, fun k k' c hk hk' => ?_⟩, fun k slug hk => ?_⟩
      · rw [hcodes, items_addItem lands.free]
        split
        · rfl
        · exact h.coded k
      · rw [hcodes] at hk hk'
        split at hk
        · next heq =>
            cases hk
            split at hk'
            · next heq' => exact heq.trans heq'.symm
            · exact absurd (mem_allCodes hk') hnew
        · split at hk'
          · cases hk'
            exact absurd (mem_allCodes hk) hnew
          · exact h.apart k k' c hk hk'
      · rw [addedAs_addItem h lands.free] at hk
        rw [items_addItem lands.free]
        split at hk
        · next heq =>
            rw [if_pos heq]
            rfl
        · next hne =>
            rw [if_neg hne]
            exact h.added k slug hk
  | changed key body =>
      refine ⟨⟨fun k => ?_, h.apart⟩, fun k slug hk => ?_⟩
      · rw [items_changeItem]
        exact h.coded k
      · rw [items_changeItem]
        exact h.added k slug hk

/-! ## What the others keep -/

/-- A series that is held gets no code from another addition. -/
theorem ItemCommit.codesLike (h : Kept s) (hlow : Below s) (hc : ItemCommit env s held s')
    (hapart : clash held held' = false) {type : ItemType}
    (hkey : ⟨env.seriesLock (itemCodePrefix type), .update⟩ ∈ held') :
    ItemCodes.codesLike s' (itemCodePrefix type) =
      ItemCodes.codesLike s (itemCodePrefix type) := by
  cases hc with
  | added a key code lands =>
      have hne : itemCodePrefix type ≠ itemCodePrefix a.body.type := by
        intro heq
        rw [heq] at hkey
        rw [clash_of_mem lands.coded.lock hkey rfl] at hapart
        cases hapart
      obtain ⟨k, hcode, -⟩ := nextItemCode_above hlow a.body.type
      unfold ItemCodes.codesLike
      rw [allCodes_addItem h lands.free, List.filter_append, List.filter_cons_of_neg,
        List.filter_nil, List.append_nil]
      rw [lands.coded.next, hcode, not_of_series hne]
      exact Bool.false_ne_true
  | changed key body => rfl

theorem Keyed.stable (h : Kept s) (hc : ItemCommit env s held s')
    (hapart : clash held held' = false) (hy : Keyed env s held' a key) :
    Keyed env s' held' a key := by
  refine ⟨hy.lock, ?_⟩
  cases hc with
  | added a' key' code' lands =>
      intro hplain slug hslug
      rw [addedAs_addItem h lands.free] at hslug
      split at hslug
      · cases hslug
        intro heq
        have hkey := lands.keyed.lock
        rw [heq] at hkey
        rw [clash_of_mem hkey hy.lock rfl] at hapart
        cases hapart
      · exact hy.other hplain slug hslug
  | changed key' body => exact hy.other

theorem Coded.stable (h : Kept s) (hlow : Below s) (hc : ItemCommit env s held s')
    (hapart : clash held held' = false) (hy : Coded env s held' a code) :
    Coded env s' held' a code :=
  ⟨hy.lock, by rw [hc.codesLike h hlow hapart hy.lock]; exact hy.next⟩

theorem Lands.stable (h : Kept s) (hlow : Below s) (hc : ItemCommit env s held s')
    (hapart : clash held held' = false) (hy : Lands env s held' a key code) :
    Lands env s' held' a key code := by
  refine ⟨hy.keyed.stable h hc hapart, hy.coded.stable h hlow hc hapart, hy.item, ?_⟩
  cases hc with
  | added a' key' code' lands =>
      have hne : key ≠ key' := by
        rintro rfl
        rw [clash_of_mem lands.item hy.item rfl] at hapart
        cases hapart
      rw [items_addItem lands.free, if_neg hne]
      exact hy.free
  | changed key' body =>
      have hsame := items_changeItem s key' body key
      rw [hy.free] at hsame
      exact Option.not_isSome_iff_eq_none.1 (by rw [hsame]; decide)

theorem ItemShaped.stable {y : Tx ItemMaster ItemLock ItemTx} (h : Kept s) (hlow : Below s)
    (hc : ItemCommit env s held s') (hapart : clash held y.held = false)
    (hy : ItemShaped env s y) : ItemShaped env s' y := by
  obtain ⟨t, held', write⟩ := y
  cases t with
  | create a p =>
      cases p with
      | begun | slugHeld => exact hy
      | keyed key => exact ⟨hy.1.stable h hc hapart, hy.2⟩
      | seriesHeld key => exact ⟨hy.1.stable h hc hapart, hy.2⟩
      | coded key code =>
          exact ⟨hy.1.stable h hc hapart, hy.2.1.stable h hlow hc hapart, hy.2.2⟩
      | inserted key code => exact ⟨hy.1.stable h hlow hc hapart, hy.2⟩
  | patch key body p => exact hy

end Commit

/-- The numbers on file are below `2 ^ 53` whenever a step is taken. -/
def Counted (w : World ItemMaster ItemLock ItemTx) (_ : TxEvent Unit ItemTx) : Prop :=
  Below w.committed

theorem itemMaster_kept (env : ItemEnv) :
    (itemMaster env).Kept Counted Kept (ItemShaped env) where
  init s hs := by
    refine ⟨hs.1, fun key slug hslug => ?_⟩
    rw [hs.2] at hslug
    cases hslug
  begins _ _ _ ht := itemShaped_begins ht
  runs _ _ _ _ _ _ _ hi hx hs := hx.runs hi hs
  commits _ _ _ hlow _ hi hx hd := hi.commit hlow (hx.commit hd)
  stable _ _ _ _ _ hlow _ _ _ hi hx hy hd hapart := hy.stable hi hlow (hx.commit hd) hapart

/-! ## Over a run -/

section Worlds

variable {w w' : World ItemMaster ItemLock ItemTx}

/-- Codes stay, and a new one is past every number its series had. -/
structure Onward (s s' : ItemMaster) : Prop where
  stays : ∀ key code, s.codes.get? key = some code → s'.codes.get? key = some code
  news : ∀ key code, s'.codes.get? key = some code → s.codes.get? key = none →
    ∃ type n, code = itemCodePrefix type ++ "-" ++ toString n ∧
      ∀ m ∈ numbersIn (itemCodePrefix type) s.allCodes, m < n

theorem Onward.refl (s : ItemMaster) : Onward s s := by
  refine ⟨fun _ _ h => h, fun key code h hnone => ?_⟩
  rw [hnone] at h
  cases h

theorem mem_allCodes_iff {code : String} :
    code ∈ s.allCodes ↔ ∃ key, s.codes.get? key = some code := by
  constructor
  · intro hmem
    obtain ⟨⟨key, _⟩, hrow, rfl⟩ := List.mem_map.1 hmem
    exact ⟨key, Table.get?_eq_some.2 hrow⟩
  · rintro ⟨key, hkey⟩
    exact mem_allCodes hkey

theorem Onward.numbersIn (h : Onward s s') {front : String} {m : ℕ}
    (hm : m ∈ numbersIn front s.allCodes) : m ∈ Rch.numbersIn front s'.allCodes := by
  obtain ⟨ds, hds, rfl⟩ := List.mem_map.1 hm
  obtain ⟨code, hcode, hdigits⟩ := List.mem_filterMap.1 hds
  obtain ⟨key, hkey⟩ := mem_allCodes_iff.1 hcode
  exact mem_numbersIn (mem_allCodes (h.stays key code hkey)) hdigits

theorem Onward.trans {s'' : ItemMaster} (h : Onward s s') (h' : Onward s' s'') :
    Onward s s'' := by
  refine ⟨fun key code hk => h'.stays key code (h.stays key code hk), ?_⟩
  intro key code hcode hnone
  cases hmid : s'.codes.get? key with
  | none =>
      obtain ⟨type, n, heq, hall⟩ := h'.news key code hcode hmid
      exact ⟨type, n, heq, fun m hm => hall m (h.numbersIn hm)⟩
  | some code' =>
      have hstays := h'.stays key code' hmid
      rw [hcode] at hstays
      cases hstays
      exact h.news key code hmid hnone

theorem ItemCommit.onward (h : Kept s) (hlow : Below s) (hc : ItemCommit env s held s') :
    Onward s s' := by
  cases hc with
  | added a key code lands =>
      have hcodes : ∀ k, (addItem a key code s).codes.get? k =
          if k = key then some code else s.codes.get? k := codes_addItem h lands.free
      refine ⟨fun k c hk => ?_, fun k c hk hnone => ?_⟩
      · rw [hcodes, if_neg]
        · exact hk
        · rintro rfl
          rw [h.uncoded lands.free] at hk
          cases hk
      · rw [hcodes] at hk
        split at hk
        · cases hk
          obtain ⟨n, heq, hall⟩ := nextItemCode_above hlow a.body.type
          exact ⟨a.body.type, n, lands.coded.next.trans heq, hall⟩
        · rw [hnone] at hk
          cases hk
  | changed key body => exact ⟨(Onward.refl s).stays, (Onward.refl s).news⟩

theorem onward_step (h : Database.Safe Kept (ItemShaped env) w) {e : TxEvent Unit ItemTx}
    (hlow : Counted w e) (he : (itemMaster env).step w e = some w') :
    Onward w.committed w'.committed := by
  cases e with
  | begin_ t =>
      obtain ⟨-, rfl⟩ := Database.step_begin he
      exact .refl _
  | run i c =>
      obtain ⟨x, st, -, -, -, rfl⟩ := Database.step_run he
      exact .refl _
  | commit i =>
      obtain ⟨x, hx, hd, rfl⟩ := Database.step_commit he
      exact ((h.ok i x hx).commit hd).onward h.inv hlow
  | abort i =>
      obtain ⟨x, -, rfl⟩ := Database.step_abort he
      exact .refl _

theorem onward_run (h : Database.Safe Kept (ItemShaped env) w)
    (hrun : ((itemMaster env).machine.startingAt w).ReachVia Counted w') :
    Onward w.committed w'.committed := by
  have hboth : Onward w.committed w'.committed ∧
      Database.Safe Kept (ItemShaped env) w' := by
    refine Machine.ReachVia.invariant (I := fun v => Onward w.committed v.committed ∧
      Database.Safe Kept (ItemShaped env) v) ?_ ?_ hrun
    · rintro v rfl
      exact ⟨.refl _, h⟩
    · intro v e v' _ hv hlow he
      exact ⟨hv.1.trans (onward_step hv.2 hlow he),
        hv.2.step (itemMaster_kept env) hlow he⟩
  exact hboth.1

end Worlds

/-! ## The codes -/

/-- The addition, where it has its key and has not stored it. -/
def ItemTx.keyed : ItemTx → Option (CreateAsk × ItemKey)
  | .create a (.keyed key) | .create a (.seriesHeld key) | .create a (.coded key _) =>
    some (a, key)
  | _ => none

def ItemTx.coded : ItemTx → Option (CreateAsk × String)
  | .create a (.coded _ code) | .create a (.inserted _ code) => some (a, code)
  | _ => none

theorem ItemShaped.keyed {x : Tx ItemMaster ItemLock ItemTx} (h : ItemShaped env s x)
    {a : CreateAsk} {key : ItemKey} (hx : x.at_.keyed = some (a, key)) :
    Keyed env s x.held a key := by
  obtain ⟨t, held, write⟩ := x
  cases t with
  | create a' p =>
      cases p with
      | keyed key' | seriesHeld key' | coded key' code =>
          cases hx
          exact h.1
      | _ => cases hx
  | patch key' body p => cases hx

theorem ItemShaped.coded {x : Tx ItemMaster ItemLock ItemTx} (h : ItemShaped env s x)
    {a : CreateAsk} {code : String} (hx : x.at_.coded = some (a, code)) :
    Coded env s x.held a code := by
  obtain ⟨t, held, write⟩ := x
  cases t with
  | create a' p =>
      cases p with
      | coded key code' =>
          cases hx
          exact h.2.1
      | inserted key code' =>
          cases hx
          exact h.1.coded
      | _ => cases hx
  | patch key' body p => cases hx

def counts (w : World ItemMaster ItemLock ItemTx) (_ : TxEvent Unit ItemTx) : Bool :=
  [ItemType.RAW, .PACK, .MRP, .FG, .MTO].all fun type =>
    (numbersIn (itemCodePrefix type) w.committed.allCodes).all fun n => decide (n < 2 ^ 53)

end Rch.ItemCodes
