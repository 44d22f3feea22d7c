import ModelGraph.Text.CaseMap
import ModelGraph.Text.Cluster

/-! # Casing of names

A name is cut into words at separators, where lower case turns into upper case, between letters and
digits, and before the last capital of an acronym that a lower-case letter follows. The words are
then written together, capitalized. -/

namespace ModelGraph.Text

/-- One cluster of a name. -/
abbrev Cluster := List Char

namespace Cluster

/-- The cluster stands between words and belongs to none. -/
def isSeparator (cluster : Cluster) : Bool :=
  cluster == ['_'] || cluster == ['-'] || cluster == [' ']

/-- The cluster is an ASCII digit. -/
def isDigit (cluster : Cluster) : Bool :=
  cluster.all Char.isDigit

/-- The cluster has case. -/
def hasCase (cluster : Cluster) : Bool :=
  upperText cluster != lowerText cluster

/-- The cluster is in upper case. -/
def isUpper (cluster : Cluster) : Bool :=
  hasCase cluster && cluster == upperText cluster

/-- The cluster is in lower case. -/
def isLower (cluster : Cluster) : Bool :=
  hasCase cluster && cluster == lowerText cluster

end Cluster

/-- A new word begins at `b`, which stands between `a` and `after`. -/
def beginsWord (a b : Cluster) (after : Option Cluster) : Bool :=
  (a.isLower && (b.isUpper || b.isDigit)) ||
    (a.isUpper && b.isDigit) ||
    (a.isDigit && (b.isLower || b.isUpper)) ||
    (a.isUpper && b.isUpper && after.any Cluster.isLower)

/-- The words of a name. Every separator ends one, so words may be empty. -/
def nameWords : List Cluster → List (List Char)
  | [] => [[]]
  | a :: rest =>
      if a.isSeparator then [] :: nameWords rest
      else
        match rest, nameWords rest with
        | b :: more, word :: others =>
            if beginsWord a b more.head? then a :: word :: others else (a ++ word) :: others
        | _, word :: others => (a ++ word) :: others
        | _, [] => [a]

/-- A name with every word capitalized. -/
def pascal (name : List Char) : List Char :=
  (nameWords (clusters name)).flatMap capitalized

/-- A name with its first word in lower case and the others capitalized. -/
def camel (name : List Char) : List Char :=
  match nameWords (clusters name) with
  | [] => []
  | first :: others => lowerText first ++ others.flatMap capitalized

end ModelGraph.Text
