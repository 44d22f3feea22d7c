import ModelGraph.Declaration.Reader
import ModelGraph.Proofs.Written.Token

/-! # How records and inputs are written

The rows of tokens that declare a record or an input with given fields. Descriptions, arguments,
default values and directives may be there or not and say nothing about the fields; commas may stand
between entries, any number of them. -/

namespace ModelGraph.Written

open Text

/-- No tokens. -/
def Absent (tokens : List Token) : Prop :=
  tokens = []

/-- A description, if there is one. -/
inductive Description : List Token → Prop
  | none : Description []
  | some (block : Bool) (body : List Char) : Description [.quoted block body]

/-- A type, and whether it is marked at the outside. Every list may be marked inside. -/
inductive TypeTokens : TypeExpr → Bool → List Token → Prop
  | named {name : String} (hname : isIdentifier name.toList = true) :
      TypeTokens (.named name) false [.word name.toList]
  | list {inner : TypeExpr} {marked : Bool} {tokens : List Token}
      (h : TypeTokens inner marked tokens) :
      TypeTokens (.list inner) false (.mark '[' :: (tokens ++ [.mark ']']))
  | marked {type : TypeExpr} {tokens : List Token} (h : TypeTokens type false tokens) :
      TypeTokens type true (tokens ++ [.mark '!'])

/-- What the tokens of a value may be. -/
inductive Phrase where
  | value
  | entries
  | members
  deriving DecidableEq, Repr

/-- Values: words, strings, lists of values, and objects with a value for each key. -/
inductive ValueTokens : Phrase → List Token → Prop
  | word (text : List Char) : ValueTokens .value [.word text]
  | quoted (block : Bool) (body : List Char) : ValueTokens .value [.quoted block body]
  | list {entries : List Token} (h : ValueTokens .entries entries) :
      ValueTokens .value (.mark '[' :: (entries ++ [.mark ']']))
  | object {members : List Token} (h : ValueTokens .members members) :
      ValueTokens .value (.mark '\x7b' :: (members ++ [.mark '\x7d']))
  | noEntries : ValueTokens .entries []
  | entriesComma {entries : List Token} (h : ValueTokens .entries entries) :
      ValueTokens .entries (.mark ',' :: entries)
  | entry {value entries : List Token} (hv : ValueTokens .value value)
      (h : ValueTokens .entries entries) : ValueTokens .entries (value ++ entries)
  | noMembers : ValueTokens .members []
  | membersComma {members : List Token} (h : ValueTokens .members members) :
      ValueTokens .members (.mark ',' :: members)
  | member (key : List Char) {value members : List Token} (hv : ValueTokens .value value)
      (h : ValueTokens .members members) :
      ValueTokens .members (.word key :: .mark ':' :: (value ++ members))

/-- A default value, if there is one. -/
inductive Default : List Token → Prop
  | none : Default []
  | some {value : List Token} (h : ValueTokens .value value) : Default (.mark '=' :: value)

/-- Tokens without parentheses. -/
def Unparenthesized (tokens : List Token) : Prop :=
  ∀ token ∈ tokens, token ≠ .mark '(' ∧ token ≠ .mark ')'

/-- Any number of directives, with or without arguments. -/
inductive Directives : List Token → Prop
  | nil : Directives []
  | plain (name : List Char) {more : List Token} (h : Directives more) :
      Directives (.directive name :: more)
  | applied (name : List Char) {inner more : List Token} (hinner : Unparenthesized inner)
      (h : Directives more) :
      Directives (.directive name :: .mark '(' :: (inner ++ .mark ')' :: more))

section Row

variable {α : Type}

/-- Entries in a row, with any number of commas before, between and after them. -/
inductive Row (Entry : α → List Token → Prop) : List α → List Token → Prop
  | nil : Row Entry [] []
  | comma {entries : List α} {tokens : List Token} (h : Row Entry entries tokens) :
      Row Entry entries (.mark ',' :: tokens)
  | cons {entry : α} {entries : List α} {first tokens : List Token} (he : Entry entry first)
      (h : Row Entry entries tokens) : Row Entry (entry :: entries) (first ++ tokens)

/-- A row in parentheses, or nothing. -/
inductive Parenthesized (Entry : α → List Token → Prop) : List Token → Prop
  | none : Parenthesized Entry []
  | some {entries : List α} {tokens : List Token} (h : Row Entry entries tokens) :
      Parenthesized Entry (.mark '(' :: (tokens ++ [.mark ')']))

end Row

/-- A name and a type, with something before the name, after it, and twice after the type. -/
inductive FieldTokens (Before Arguments Value After : List Token → Prop) :
    FieldSyntax → List Token → Prop
  | mk {ident : String} {type : TypeExpr} {required : Bool}
      {before arguments tokens value after : List Token} (hbefore : Before before)
      (hident : isIdentifier ident.toList = true) (harguments : Arguments arguments)
      (htype : TypeTokens type required tokens) (hvalue : Value value) (hafter : After after) :
      FieldTokens Before Arguments Value After ⟨ident, type, required⟩
        (before ++ .word ident.toList ::
          (arguments ++ .mark ':' :: (tokens ++ (value ++ after))))

/-- A field of an input, or an argument: it may have a default value. -/
def InputField : FieldSyntax → List Token → Prop :=
  FieldTokens Description Absent Default Directives

/-- A field of a record: it may have arguments. -/
def RecordField : FieldSyntax → List Token → Prop :=
  FieldTokens Description (Parenthesized InputField) Absent Directives

/-- A declaration of a kind: a keyword, a name, directives, and fields in braces. -/
inductive DeclarationTokens (kind : Kind) (Entry : FieldSyntax → List Token → Prop)
    (ident : String) (fields : List FieldSyntax) : List Token → Prop
  | mk {before directives tokens : List Token} (hbefore : Description before)
      (hident : isIdentifier ident.toList = true) (hdirectives : Directives directives)
      (h : Row Entry fields tokens) :
      DeclarationTokens kind Entry ident fields
        (before ++ .word kind.keyword.toList :: .word ident.toList ::
          (directives ++ .mark '\x7b' :: (tokens ++ [.mark '\x7d'])))

/-- The tokens declare a record or an input with the name and the fields. -/
inductive Declares : Kind → String → List FieldSyntax → List Token → Prop
  | record {ident : String} {fields : List FieldSyntax} {tokens : List Token}
      (h : DeclarationTokens .record RecordField ident fields tokens) :
      Declares .record ident fields tokens
  | input {ident : String} {fields : List FieldSyntax} {tokens : List Token}
      (h : DeclarationTokens .input InputField ident fields tokens) :
      Declares .input ident fields tokens

end ModelGraph.Written
