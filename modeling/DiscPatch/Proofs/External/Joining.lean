import DiscPatch.Proofs.External.Confinement

/-!
# Joined paths lead on from where they start

To join a relative path to another path and to work out where both lead together is the same as to
work out where the first leads and to go on from there. It does not matter how either is spelled:
empty, made of separators only, with some to spare at the seam, or with components that take others
back.

* `infix_of_infix_around` — a text without separators stands on one side of a separator;
* `not_foreign_joinPaths` — joining brings no foreign separator in;
* `located_onward` — where a joined path leads.
-/

namespace DiscPatch

open DiscPatch.Host (isAbsolute)
open DiscPatch.Text (split)

/-! ## Foreign separators -/

/-- A text without separators that stands around one stands on one side of it. -/
theorem infix_of_infix_around {part front back : List Char} (hpart : '/' ∉ part)
    (h : part <:+: front ++ '/' :: back) : part <:+: front ∨ part <:+: back := by
  -- what begins at the separator is empty
  have hstart {begun : List Char} (hbegun : '/' ∉ begun) (hbefore : begun <+: '/' :: back) :
      begun = [] := by
    rcases List.prefix_cons_iff.mp hbefore with hnil | ⟨rest, rfl, -⟩
    · exact hnil
    · exact absurd List.mem_cons_self hbegun
  rcases List.infix_append_iff.mp h with hfront | hback | ⟨left, right, rfl, hleft, hright⟩
  · exact .inl hfront
  · rcases List.infix_cons_iff.mp hback with hbefore | hback
    · rw [hstart hpart hbefore]
      exact .inl List.nil_infix
    · exact .inr hback
  · rw [hstart (fun hmem => hpart (List.mem_append_right left hmem)) hright, List.append_nil]
    exact .inl hleft.isInfix

/-- A separator of another kind that stands in a joined path stands in one of the two. -/
theorem not_foreign_joinPaths {foreign : List String} {path more : String}
    (hforeign : ∀ separator ∈ foreign, '/' ∉ separator.toList)
    (hrelative : isAbsolute more = false)
    (hpath : ¬ ∃ separator ∈ foreign, separator.toList <:+: path.toList)
    (hmore : ¬ ∃ separator ∈ foreign, separator.toList <:+: more.toList) :
    ¬ ∃ separator ∈ foreign, separator.toList <:+: (joinPaths path more).toList := by
  rintro ⟨separator, hmem, hinfix⟩
  by_cases hne : more = ""
  · rw [hne, joinPaths_empty] at hinfix
    exact hpath ⟨separator, hmem, hinfix⟩
  rcases joinPaths_cases path hne hrelative with ⟨-, hjoin⟩ | ⟨-, front, hfront, hjoin⟩
  · rw [hjoin] at hinfix
    exact hmore ⟨separator, hmem, hinfix⟩
  · have hchars : (front ++ "/" ++ more).toList = front.toList ++ '/' :: more.toList := by simp
    rw [hjoin, hchars] at hinfix
    rcases infix_of_infix_around (hforeign separator hmem) hinfix with hbefore | hafter
    · refine hpath ⟨separator, hmem, ?_⟩
      rcases hfront with rfl | rfl
      · exact hbefore
      · rw [String.toList_append]
        exact List.infix_append_of_infix_left hbefore
    · exact hmore ⟨separator, hmem, hafter⟩

/-! ## Where joined paths lead -/

/-- **A joined path leads on.** A path that is accepted, with a relative one that is accepted joined
to it, is accepted too. It leads where the second path leads from the place that the first one leads
to, below the root that the first one starts from. -/
theorem located_onward (roots : Roots) (foreign : List String) (first second : String)
    {folder place : String} (hforeign : ∀ separator ∈ foreign, '/' ∉ separator.toList)
    (hfirst : roots.locateWithout foreign first = .ok folder)
    (hsecond : roots.locateWithout foreign second = .ok place)
    (hrelative : isAbsolute second = false) :
    isAbsolute (joinPaths first second) = isAbsolute first ∧
      ∃ joined, roots.locateWithout foreign (joinPaths first second) = .ok joined ∧
        Roots.locateWithout ⟨roots.card, folder⟩ foreign second = .ok joined := by
  obtain ⟨hclean, names, hnames, rfl⟩ := Roots.exists_settle_of_locateWithout hfirst
  obtain ⟨hmore, others, hothers, -⟩ := Roots.exists_settle_of_locateWithout hsecond
  have hstart := isAbsolute_joinPaths first hrelative
  -- the second path settles on top of what is left of the first, and takes nothing of it back
  have hsettled : settle (joinPaths first second) [] (split '/' (joinPaths first second)) =
      .ok (names ++ others) := by
    have honto := @settle_onto second (joinPaths first second) [] names.reverse _ _ hothers
    rw [List.nil_append, List.reverse_reverse] at honto
    rw [settle_joinPaths _ _ hrelative, settle_of_settle hnames]
    exact honto
  refine ⟨hstart, below (roots.start first) (names ++ others), ?_, ?_⟩
  · rw [Roots.locateWithout_of_not_foreign
      (not_foreign_joinPaths hforeign hrelative hclean hmore), hsettled, Roots.start, hstart]
    rfl
  · rw [Roots.locateWithout_of_not_foreign hmore, hothers, Roots.start, hrelative, below, below,
      List.foldl_append]
    rfl

/-- The first path is nothing but a separator, the second takes a component back and has separators
to spare. -/
theorem located_onward_top :
    let roots : Roots := ⟨"/sd", "/mods"⟩
    isAbsolute (joinPaths "/" "a/.././b//c/") = true ∧
      roots.locateWithout ["\\"] (joinPaths "/" "a/.././b//c/") = .ok "/sd/b/c" ∧
      Roots.locateWithout ⟨"/sd", "/sd"⟩ ["\\"] "a/.././b//c/" = .ok "/sd/b/c" := by
  intro roots
  have hfirst : roots.locateWithout ["\\"] "/" = .ok "/sd" := by decide +kernel
  have hsecond : roots.locateWithout ["\\"] "a/.././b//c/" = .ok "/mods/b/c" := by decide +kernel
  have hplace : Roots.locateWithout ⟨"/sd", "/sd"⟩ ["\\"] "a/.././b//c/" = .ok "/sd/b/c" := by
    decide +kernel
  obtain ⟨hstart, joined, hjoined, honward⟩ := located_onward roots ["\\"] "/" "a/.././b//c/"
    (by decide) hfirst hsecond (by decide)
  obtain rfl := Except.ok.inj (hplace.symm.trans honward)
  exact ⟨hstart, hjoined, honward⟩

end DiscPatch
