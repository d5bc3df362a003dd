import ArtifactAtlas.Json.Token

/-!
# Scanned documents

A document is the layout of a JSON text.  Numbers and quoted texts stay unread;
each holds the text from where it starts, because what they stand for, and
whether they stand for anything, depends on who reads them.  Where the text
breaks off or goes wrong the document is broken, and nothing comes after that.
-/

namespace ArtifactAtlas.Json

mutual

inductive Document where
  | null
  | bool (b : Bool)
  /-- A number, with the text from its first character. -/
  | number (source : List Char)
  /-- A quoted text, with the text from after its opening quote. -/
  | text (source : List Char)
  | array (items : Items)
  | object (members : Members)
  | broken (fault : Fault)

inductive Items where
  | close
  | broken (fault : Fault)
  | item (value : Document) (rest : Items)

inductive Members where
  | close
  | broken (fault : Fault)
  /-- A member, with the text from after the opening quote of its name. -/
  | member (name : List Char) (value : Document) (rest : Members)

end

/-- What follows a token: strictly less than `text`. -/
abbrev Rest (text : List Char) : Type :=
  { rest : List Char // rest.length < text.length }

/-- A word that stands for a value, from its first letter on. -/
def scanWord (text : List Char) : Document × Option (Rest text) :=
  match text with
  | [] => (.broken .truncated, none)
  | c :: tail =>
      let known : Option (List Char × Document) :=
        match c with
        | 'n' => some ("ull".toList, .null)
        | 't' => some ("rue".toList, .bool true)
        | 'f' => some ("alse".toList, .bool false)
        | _ => none
      match known with
      | none => (.broken .malformed, none)
      | some (letters, value) =>
          match h : readWord letters tail with
          | .error fault => (.broken fault, none)
          | .ok rest => (value, some ⟨rest, Nat.lt_succ_of_le (length_le_of_readWord h)⟩)

def startsNumber (c : Char) : Bool :=
  c = '-' || c.isDigit

mutual

def scanValue (text : List Char) : Document × Option (Rest text) :=
  match h : skipBlank text with
  | [] => (.broken .truncated, none)
  | c :: tail =>
      have hblank := length_skipBlank_le text
      have htail : tail.length < text.length := by
        rw [h, List.length_cons] at hblank
        omega
      if c = '[' then
        let (items, rest) := scanItems tail true
        (.array items, rest.map fun rest => ⟨rest.1, Nat.lt_trans rest.2 htail⟩)
      else if c = '\x7b' then
        let (members, rest) := scanMembers tail true
        (.object members, rest.map fun rest => ⟨rest.1, Nat.lt_trans rest.2 htail⟩)
      else if c = '"' then
        match hskip : skipText tail with
        | .error _ => (.text tail, none)
        | .ok rest =>
            (.text tail, some ⟨rest, Nat.lt_trans (length_lt_of_skipText hskip) htail⟩)
      else if startsNumber c then
        match hskip : skipNumber (c :: tail) with
        | .error _ => (.number (c :: tail), none)
        | .ok rest =>
            (.number (c :: tail), some ⟨rest, by
              have := length_lt_of_skipNumber hskip
              rw [h] at hblank
              omega⟩)
      else
        let (value, rest) := scanWord (c :: tail)
        (value, rest.map fun rest => ⟨rest.1, by
          have := rest.2
          rw [h] at hblank
          omega⟩)
termination_by 4 * text.length + 1

/-- Scans the items of an array up to its bracket; a comma comes before each but the first. -/
def scanItems (text : List Char) (first : Bool) : Items × Option (Rest text) :=
  match h : skipBlank text with
  | [] => (.broken .truncated, none)
  | c :: tail =>
      have hblank := length_skipBlank_le text
      have htail : tail.length < text.length := by
        rw [h, List.length_cons] at hblank
        omega
      if c = ']' then (.close, some ⟨tail, htail⟩)
      else if first then scanItem text
      else if c = ',' then
        match skipBlank tail with
        | ']' :: _ => (.item (.broken .malformed) .close, none)
        | _ =>
            let (items, rest) := scanItem tail
            (items, rest.map fun rest => ⟨rest.1, Nat.lt_trans rest.2 htail⟩)
      else (.broken .malformed, none)
termination_by 4 * text.length + 3

/-- Scans one item and those after it. -/
def scanItem (text : List Char) : Items × Option (Rest text) :=
  match scanValue text with
  | (value, none) => (.item value .close, none)
  | (value, some ⟨rest, hrest⟩) =>
      let (items, rest') := scanItems rest false
      (.item value items, rest'.map fun rest' => ⟨rest'.1, Nat.lt_trans rest'.2 hrest⟩)
termination_by 4 * text.length + 2

/-- Scans the members of an object up to its brace; a comma comes before each but the first. -/
def scanMembers (text : List Char) (first : Bool) : Members × Option (Rest text) :=
  match h : skipBlank text with
  | [] => (.broken .truncated, none)
  | c :: tail =>
      have hblank := length_skipBlank_le text
      have htail : tail.length < text.length := by
        rw [h, List.length_cons] at hblank
        omega
      if c = '\x7d' then (.close, some ⟨tail, htail⟩)
      else if first then
        if c = '"' then
          let (members, rest) := scanMember tail
          (members, rest.map fun rest => ⟨rest.1, Nat.lt_trans rest.2 htail⟩)
        else (.broken .malformed, none)
      else if c = ',' then
        match hnext : skipBlank tail with
        | [] => (.broken .truncated, none)
        | q :: name =>
            have hname : name.length < text.length := by
              have := length_skipBlank_le tail
              rw [hnext, List.length_cons] at this
              omega
            if q = '"' then
              let (members, rest) := scanMember name
              (members, rest.map fun rest => ⟨rest.1, Nat.lt_trans rest.2 hname⟩)
            else (.broken .malformed, none)
      else (.broken .malformed, none)
termination_by 4 * text.length + 1

/-- Scans one member, from after the opening quote of its name, and those after it. -/
def scanMember (text : List Char) : Members × Option (Rest text) :=
  match hskip : skipText text with
  | .error fault => (.member text (.broken fault) .close, none)
  | .ok afterName =>
      have hname := length_lt_of_skipText hskip
      match h : skipBlank afterName with
      | [] => (.member text (.broken .truncated) .close, none)
      | c :: tail =>
          have htail : tail.length < text.length := by
            have := length_skipBlank_le afterName
            rw [h, List.length_cons] at this
            omega
          if c = ':' then
            match scanValue tail with
            | (value, none) => (.member text value .close, none)
            | (value, some ⟨rest, hrest⟩) =>
                let (members, rest') := scanMembers rest false
                (.member text value members,
                  rest'.map fun rest' =>
                    ⟨rest'.1, Nat.lt_trans rest'.2 (Nat.lt_trans hrest htail)⟩)
          else (.member text (.broken .malformed) .close, none)
termination_by 4 * text.length + 0

end

/-- A document, and whether nothing but blanks follows it. -/
def scan (text : List Char) : Document × Bool :=
  match scanValue text with
  | (document, none) => (document, false)
  | (document, some rest) => (document, (skipBlank rest.1).isEmpty)

end ArtifactAtlas.Json
