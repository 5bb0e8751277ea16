import DiscPatch.Proofs.Disc.Growth
import Mathlib.Data.List.TakeWhile

/-!
# Entries of a listing

A listing has one entry for each file of a tree, in one order, so that a file has a number in it. A
lookup can be described by the number of the file it finds.

* `pathNumber?`, `nameNumber?` — the number of the file that a path leads to, and of the first file
  of a name;
* `Touched` — a listing in which one entry is replaced, or to which one is added;
* `Reaching.touched`, `Holding.touched` — replacing the file that a lookup has found touches the
  entry of that number;
* `Reaching.listing_of_error` — a path that cannot be followed touches none.
-/

namespace DiscPatch

@[simp] theorem listing_file (above : String) (file : File) (rest : List Node) :
    listing above (.file file :: rest) = (childPath above file.name, file) :: listing above rest :=
  rfl

@[simp] theorem listing_folder (above name : String) (below rest : List Node) :
    listing above (.folder name below :: rest) =
      listing (childPath above name) below ++ listing above rest :=
  rfl

theorem length_listing (above : String) (nodes : List Node) :
    (listing above nodes).length = (filesOf nodes).length := by
  have hfiles := congrArg List.length (map_snd_listing above "" nodes)
  rwa [List.length_map] at hfiles

/-! ## Numbers -/

/-- The number of the file that a path leads to. At each step the path goes on at the first node of
the name. -/
def pathNumber? : List String → List Node → Option Nat
  | [], _ => none
  | name :: rest, nodes =>
    if name = "" then none
    else
      let skipped := (filesOf (nodes.takeWhile (!sameName ·.name name))).length
      match nodes.dropWhile (!sameName ·.name name), rest with
      | .file _ :: _, [] => some skipped
      | .folder _ below :: _, _ :: _ => (pathNumber? rest below).map (· + skipped)
      | _, _ => none

/-- The number of the first file of that name, by the order of the listing. -/
def nameNumber? (name : String) (nodes : List Node) : Option Nat :=
  (listing "" nodes).findIdx? (sameName ·.2.name name)

section Path

variable {name : String} {rest : List String} {front back : List Node}

theorem takeWhile_of_split (node : Node) (hfront : ∀ other ∈ front, ¬ sameName other.name name)
    (hnode : sameName node.name name) :
    (front ++ node :: back).takeWhile (!sameName ·.name name) = front := by
  rw [List.takeWhile_append_of_pos (by simpa using hfront),
    List.takeWhile_cons_of_neg (by simpa using hnode), List.append_nil]

theorem dropWhile_of_split (node : Node) (hfront : ∀ other ∈ front, ¬ sameName other.name name)
    (hnode : sameName node.name name) :
    (front ++ node :: back).dropWhile (!sameName ·.name name) = node :: back := by
  rw [List.dropWhile_append_of_pos (by simpa using hfront),
    List.dropWhile_cons_of_neg (by simpa using hnode)]

theorem pathNumber?_file {file : File} (hname : name ≠ "")
    (hfront : ∀ other ∈ front, ¬ sameName other.name name) (hfile : sameName file.name name) :
    pathNumber? [name] (front ++ .file file :: back) = some (filesOf front).length := by
  rw [pathNumber?, if_neg hname, dropWhile_of_split (.file file) hfront hfile,
    takeWhile_of_split (.file file) hfront hfile]

theorem pathNumber?_folder {next found : String} {below : List Node} (hname : name ≠ "")
    (hfront : ∀ other ∈ front, ¬ sameName other.name name) (hfound : sameName found name) :
    pathNumber? (name :: next :: rest) (front ++ .folder found below :: back) =
      (pathNumber? (next :: rest) below).map (· + (filesOf front).length) := by
  rw [pathNumber?, if_neg hname, dropWhile_of_split (.folder found below) hfront hfound,
    takeWhile_of_split (.folder found below) hfront hfound]

theorem pathNumber?_absent {nodes : List Node}
    (h : ∀ other ∈ nodes, ¬ sameName other.name name) :
    pathNumber? (name :: rest) nodes = none := by
  rw [pathNumber?, List.dropWhile_eq_nil_iff.mpr (by simpa using h)]
  split <;> rfl

end Path

mutual
theorem Node.not_sameName_of_findFile? {name : String} (above : String) : ∀ node : Node,
    node.findFile? name = none → ∀ entry ∈ node.listing above, ¬ sameName entry.2.name name
  | .file leaf => by
    intro h entry hentry
    rw [Node.findFile?] at h
    split at h
    · cases h
    · next hname =>
      obtain rfl := List.mem_singleton.mp hentry
      exact hname
  | .folder found children => not_sameName_of_findFile? _ 0 children

/-- Where no file of a name is found, none is listed. -/
theorem not_sameName_of_findFile? {name : String} (above : String) (index : Nat) :
    ∀ nodes : List Node, findFile? name index nodes = none →
      ∀ entry ∈ listing above nodes, ¬ sameName entry.2.name name
  | [] => by simp [listing]
  | node :: rest => by
    intro h entry hentry
    rw [findFile?] at h
    rcases hnode : node.findFile? name with _ | place
    · rw [hnode] at h
      rcases List.mem_append.mp hentry with hentry | hentry
      · exact node.not_sameName_of_findFile? above hnode entry hentry
      · exact not_sameName_of_findFile? above (index + 1) rest h entry hentry
    · rw [hnode] at h
      cases h
end

/-! ## Listings of which one entry is touched -/

/-- What is left of a listing once the entry of that number is taken out. -/
def othersOf (number? : Option Nat) (entries : List (String × File)) : List (String × File) :=
  number?.elim entries entries.eraseIdx

theorem othersOf_self (number? : Option Nat) (entries : List (String × File)) :
    (othersOf number? entries).Sublist entries ∧
      entries.length ≤ (othersOf number? entries).length + 1 := by
  cases number? with
  | none => exact ⟨List.Sublist.refl _, Nat.le_succ _⟩
  | some number =>
    refine ⟨List.eraseIdx_sublist .., ?_⟩
    rw [othersOf, Option.elim_some, List.length_eraseIdx]
    split <;> omega

/-- The listing `now` has a new file in place of an old one: in the entry of that number, or, if
there is no number, in an entry more. What was not there before counts as empty. -/
inductive Touched (old new : File) : Option Nat → (before now : List (String × File)) → Prop where
  /-- an entry is replaced -/
  | replaced (path : String) (front back : List (String × File)) :
    Touched old new (some front.length) (front ++ (path, old) :: back)
      (front ++ (path, new) :: back)
  /-- an entry is added -/
  | added (path name : String) (front back : List (String × File)) (hold : old = File.empty name) :
    Touched old new none (front ++ back) (front ++ (path, new) :: back)

namespace Touched

variable {old new : File} {number? : Option Nat} {before now : List (String × File)}

/-- The other entries stay where they were. -/
theorem within (h : Touched old new number? before now) (left right : List (String × File)) :
    Touched old new (number?.map (· + left.length)) (left ++ (before ++ right))
      (left ++ (now ++ right)) := by
  cases h with
  | replaced path front back =>
    have h : Touched old new _ _ _ := replaced path (left ++ front) (back ++ right)
    simpa [Nat.add_comm] using h
  | added path name front back hold =>
    have h : Touched old new _ _ _ := added path name (left ++ front) (back ++ right) hold
    simpa using h

/-- All entries but the touched one are as they were, and there is one more. -/
theorem others (h : Touched old new number? before now) :
    (othersOf number? before).Sublist now ∧ now.length = (othersOf number? before).length + 1 := by
  cases h with
  | replaced path front back =>
    simp [othersOf, List.eraseIdx_append_of_length_le, Nat.add_assoc]
  | added path name front back hold => simp [othersOf, Nat.add_assoc]

/-- To put a file in place of itself changes no entry. -/
theorem sublist_of_same {file : File} (h : Touched file file number? before now) :
    before.Sublist now := by
  cases h with
  | replaced => exact List.Sublist.refl _
  | added => simp

end Touched

/-- **A path that is followed leads to one entry.** Replacing the file at its end touches that
entry, or adds one if the path did not lead to a file before. -/
theorem Reaching.touched {create : Bool} {parts : List String} {nodes after : List Node}
    {answer : Except LookupFault Location} (h : Reaching create parts nodes after answer)
    (above : String) :
    ∀ place old new, answer = .ok place → fileAt? place after = some old → new.name = old.name →
      Touched old new (pathNumber? parts nodes) (listing above nodes)
        (listing above (modifyAt new place after)) := by
  induction h generalizing above with
  | @file name front back file hname hfront hfile =>
    rintro place old new ⟨⟩ hold hnew
    rw [fileAt?_here] at hold
    cases hold
    rw [pathNumber?_file hname hfront hfile, modifyAt_here, listing_append, listing_append,
      listing_file, listing_file, hnew, ← length_listing above]
    exact .replaced ..
  | @folder name next found rest front back below after answer hname hfront hfound _ ih =>
    cases answer with
    | error fault => rintro place old new ⟨⟩
    | ok place =>
      rintro _ old new ⟨⟩ hold hnew
      rw [fileAt?_below] at hold
      rw [pathNumber?_folder hname hfront hfound, modifyAt_below, listing_append, listing_append,
        listing_folder, listing_folder, ← length_listing above]
      exact (ih _ place old new rfl hold hnew).within _ _
  | @newFile name nodes hname _ hnodes =>
    rintro place old new ⟨⟩ hold hnew
    rw [fileAt?_here] at hold
    cases hold
    rw [pathNumber?_absent hnodes, modifyAt_here, listing_append]
    have hadded : Touched (File.empty name) new _ _ _ :=
      .added (childPath above new.name) name (listing above nodes) [] rfl
    rwa [List.append_nil] at hadded
  | @newFolder name next rest nodes after answer hname _ hnodes _ ih =>
    cases answer with
    | error fault => rintro place old new ⟨⟩
    | ok place =>
      rintro _ old new ⟨⟩ hold hnew
      rw [fileAt?_below] at hold
      rw [pathNumber?_absent hnodes, modifyAt_below, listing_append, listing_folder]
      -- nothing stands in a new folder
      have htouched := ih (childPath above name) place old new rfl hold hnew
      rw [pathNumber?_absent (by simp)] at htouched
      simpa [listing] using htouched.within (listing above nodes) []
  | _ => rintro place old new ⟨⟩

/-- A path that cannot be followed leaves all entries as they are. -/
theorem Reaching.listing_of_error {create : Bool} {parts : List String} {nodes after : List Node}
    {answer : Except LookupFault Location} (h : Reaching create parts nodes after answer)
    (above : String) :
    ∀ fault, answer = .error fault →
      DiscPatch.listing above after = DiscPatch.listing above nodes := by
  induction h generalizing above with
  | @folder _ _ found _ front back below after answer _ _ _ _ ih =>
    cases answer with
    | error fault =>
      rintro _ -
      rw [listing_append, listing_append, listing_folder, listing_folder, ih _ fault rfl]
    | ok place => rintro fault ⟨⟩
  | @newFolder name _ _ nodes after answer _ _ _ _ ih =>
    cases answer with
    | error fault =>
      rintro _ -
      rw [listing_append, listing_folder, ih _ fault rfl]
      simp [listing]
    | ok place => rintro fault ⟨⟩
  | newFile => rintro fault ⟨⟩
  | _ => exact fun _ _ => rfl

/-- A path that meets something of the wrong kind has created nothing: it has gone through nodes
that were there. -/
theorem Reaching.eq_of_mismatch {create : Bool} {parts : List String} {nodes after : List Node}
    {answer : Except LookupFault Location} (h : Reaching create parts nodes after answer) :
    ∀ fault, answer = .error fault → fault.isMismatch → after = nodes ∧ nodes ≠ [] := by
  induction h with
  | @folder _ _ _ _ _ _ _ _ answer _ _ _ _ ih =>
    cases answer with
    | error fault =>
      rintro _ ⟨⟩ hmismatch
      obtain ⟨rfl, -⟩ := ih fault rfl hmismatch
      exact ⟨rfl, by simp⟩
    | ok place => rintro fault ⟨⟩
  | @newFolder _ _ _ _ _ answer _ _ _ _ ih =>
    cases answer with
    | error fault =>
      rintro _ ⟨⟩ hmismatch
      exact absurd rfl (ih fault rfl hmismatch).2
    | ok place => rintro fault ⟨⟩
  | notFolder => exact fun _ _ _ => ⟨rfl, by simp⟩
  | notFile => exact fun _ _ _ => ⟨rfl, by simp⟩
  | _ => rintro fault ⟨⟩ ⟨⟩

/-- In front of the first file of a name, no entry has the name. -/
theorem findIdx?_listing_front {name : String} {front : List Node} (above : String)
    (hfront : ∀ other ∈ front, other.findFile? name = none) :
    (listing above front).findIdx? (sameName ·.2.name name) = none := by
  rw [List.findIdx?_eq_none_iff]
  induction front with
  | nil => simp [listing]
  | cons node rest ih =>
    obtain ⟨hnode, hrest⟩ := List.forall_mem_cons.mp hfront
    intro entry hentry
    rcases List.mem_append.mp hentry with hentry | hentry
    · simpa using node.not_sameName_of_findFile? above hnode entry hentry
    · exact ih hrest entry hentry

/-- **The first file of a name is the first entry of that name.** Replacing it touches that
entry. -/
theorem Holding.touched {name : String} {nodes : List Node} {place : Location} {file new : File}
    (h : Holding name nodes place file) (hnew : new.name = file.name) (above : String) :
    ∃ number, (listing above nodes).findIdx? (sameName ·.2.name name) = some number ∧
      Touched file new (some number) (listing above nodes)
        (listing above (modifyAt new place nodes)) := by
  induction h generalizing above with
  | @here front back file hfront hfile =>
    refine ⟨(listing above front).length, ?_, ?_⟩
    · rw [listing_append, List.findIdx?_append, findIdx?_listing_front above hfront, listing_file,
        List.findIdx?_cons, if_pos hfile]
      simp
    · rw [modifyAt_here, listing_append, listing_append, listing_file, listing_file, hnew]
      exact .replaced ..
  | @deeper front back below found place file hfront _ ih =>
    obtain ⟨number, hnumber, htouched⟩ := ih hnew (childPath above found)
    refine ⟨number + (listing above front).length, ?_, ?_⟩
    · rw [listing_append, List.findIdx?_append, findIdx?_listing_front above hfront,
        listing_folder, List.findIdx?_append, hnumber]
      rfl
    · rw [modifyAt_below, listing_append, listing_append, listing_folder, listing_folder]
      exact htouched.within _ _

end DiscPatch
