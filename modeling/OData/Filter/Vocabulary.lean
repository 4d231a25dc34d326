import OData.Text

namespace OData

inductive BinaryOperator
  | eq | ne | gt | ge | lt | le | add | sub | mul | div | mod
deriving DecidableEq, Repr

namespace BinaryOperator

def all : List BinaryOperator := [.eq, .ne, .gt, .ge, .lt, .le, .add, .sub, .mul, .div, .mod]

def name : BinaryOperator → String
  | .eq => "eq"
  | .ne => "ne"
  | .gt => "gt"
  | .ge => "ge"
  | .lt => "lt"
  | .le => "le"
  | .add => "add"
  | .sub => "sub"
  | .mul => "mul"
  | .div => "div"
  | .mod => "mod"

def ofName? (name : String) : Option BinaryOperator := all.find? (·.name = name)

end BinaryOperator

inductive FilterFunction
  | contains | endsWith | startsWith | length | indexOf | substring | toLower | toUpper | trim
  | concat | year | month | day | hour | minute | second | fractionalSeconds | date | time
  | totalOffsetMinutes | now | maxDateTime | minDateTime | totalSeconds | round | floor | ceiling
  | isOf | cast
deriving DecidableEq, Repr

namespace FilterFunction

def all : List FilterFunction :=
  [.contains, .endsWith, .startsWith, .length, .indexOf, .substring, .toLower, .toUpper, .trim,
    .concat, .year, .month, .day, .hour, .minute, .second, .fractionalSeconds, .date, .time,
    .totalOffsetMinutes, .now, .maxDateTime, .minDateTime, .totalSeconds, .round, .floor, .ceiling,
    .isOf, .cast]

def name : FilterFunction → String
  | .contains => "contains"
  | .endsWith => "endswith"
  | .startsWith => "startswith"
  | .length => "length"
  | .indexOf => "indexof"
  | .substring => "substring"
  | .toLower => "tolower"
  | .toUpper => "toupper"
  | .trim => "trim"
  | .concat => "concat"
  | .year => "year"
  | .month => "month"
  | .day => "day"
  | .hour => "hour"
  | .minute => "minute"
  | .second => "second"
  | .fractionalSeconds => "fractionalseconds"
  | .date => "date"
  | .time => "time"
  | .totalOffsetMinutes => "totaloffsetminutes"
  | .now => "now"
  | .maxDateTime => "maxdatetime"
  | .minDateTime => "mindatetime"
  | .totalSeconds => "totalseconds"
  | .round => "round"
  | .floor => "floor"
  | .ceiling => "ceiling"
  | .isOf => "isof"
  | .cast => "cast"

def ofName? (name : String) : Option FilterFunction := all.find? (·.name = name)

end FilterFunction

/-- Whether some or every element of a collection has to satisfy a condition. -/
inductive Quantifier
  | any
  | all
deriving DecidableEq, Repr

def Quantifier.name : Quantifier → String
  | .any => "any"
  | .all => "all"

/-- What stands between the operands of an expression. -/
inductive Connective
  | and
  | or
  | within
  | step
  | operator (op : BinaryOperator)
deriving DecidableEq, Repr

namespace Connective

/-- Binding a path to a value means equality unless something else is said. -/
abbrev eq : Connective := .operator .eq

/-- The connective with the blanks around it; a path step has none. -/
def text : Connective → Text
  | .and => " and ".toList
  | .or => " or ".toList
  | .within => " in ".toList
  | .step => "/".toList
  | .operator op => ' ' :: op.name.toList ++ [' ']

end Connective

end OData
