import TableJoin.Schema.Shared

/-!
Value domains of attribute columns: the features of the four classes, of their
categories and null values, and of units and uncertainty.
-/

namespace TableJoin.Schema.ValueDomain

open Markup.QName Feature Shared

/-- Value domain of a column: one of four classes. -/
def values : List Feature :=
  [ child "nominal" (tjs "Nominal") .nominal,
    child "ordinal" (tjs "Ordinal") .ordinal,
    child "count" (tjs "Count") .count,
    child "measure" (tjs "Measure") .measure ]

def nominal : List Feature :=
  [ child "classes" (tjs "Classes") .namedClasses,
    child "exceptions" (tjs "Exceptions") .categoricalExceptions ]

def ordinal : List Feature :=
  [ needed <| child "classes" (tjs "Classes") .rankedClasses,
    child "exceptions" (tjs "Exceptions") .categoricalExceptions ]

def count : List Feature :=
  [ needed <| child "uom" (tjs "UOM") .unitOfMeasure,
    child "uncertainty" (tjs "Uncertainty") .uncertainty,
    child "exceptions" (tjs "Exceptions") .numericExceptions ]

def measure : List Feature :=
  [ needed <| child "uom" (tjs "UOM") .unitOfMeasure,
    child "uncertainty" (tjs "Uncertainty") .uncertainty,
    child "exceptions" (tjs "Exceptions") .numericExceptions ]

def rankedClasses : List Feature :=
  presentation ++
  [ needed <| listed <| child "value" (tjs "Value") .rankedClass ]

def namedClasses : List Feature :=
  presentation ++
  [ needed <| listed <| child "value" (tjs "Value") .namedClass ]

def rankedClass : List Feature :=
  [ needed <| leaf "identifier" (tjs "Identifier") .text,
    leaf "title" (tjs "Title") .text,
    child "abstract" (tjs "Abstract") .abstract,
    leaf "documentation" (tjs "Documentation") .text,
    attr "color" (plain "color") .text,
    needed <| attr "rank" (plain "rank") .integer ]

def namedClass : List Feature :=
  [ needed <| leaf "identifier" (tjs "Identifier") .text,
    leaf "title" (tjs "Title") .text,
    child "abstract" (tjs "Abstract") .abstract,
    leaf "documentation" (tjs "Documentation") .text,
    attr "color" (plain "color") .text ]

def numericNull : List Feature :=
  [ needed <| leaf "identifier" (tjs "Identifier") .text ] ++
  presentation

def categoricalNull : List Feature :=
  [ needed <| leaf "identifier" (tjs "Identifier") .text ] ++
  presentation ++
  [ attr "color" (plain "color") .text ]

def categoricalExceptions : List Feature :=
  [ needed <| listed <| child "null" (tjs "Null") .categoricalNull ]

def numericExceptions : List Feature :=
  [ needed <| listed <| child "null" (tjs "Null") .numericNull ]

def unitOfMeasure : List Feature :=
  [ needed <| leaf "short_form" (tjs "ShortForm") .text,
    needed <| leaf "long_form" (tjs "LongForm") .text,
    attr "reference" (plain "reference") .text ]

def uncertainty : List Feature :=
  [ needed <| defaulting (.literal (.first .gaussian)) <|
      attr "gaussian" (plain "gaussian") (.enumeration .gaussian),
    body "value" .text ]

end TableJoin.Schema.ValueDomain
