import TableJoin.Document.Text
import TableJoin.Numeral.Unsigned
import TableJoin.Text.Buffer

/-!
A sample document of any size: attribute data with two columns, in which every
tenth row has a null cell.
-/

namespace TableJoin.Sample

open Numeral Text

/-- The sample up to its first row. -/
def head : String := r#"<?xml version="1.0" encoding="UTF-8"?>
<tjs:GDAS xmlns:tjs="http://www.opengis.net/tjs/1.0"
    xmlns:xlink="http://www.w3.org/1999/xlink"
    capabilities="http://example.org/tjs?request=GetCapabilities"
    lang="en" service="TJS" version="1.0">
  <tjs:Framework>
    <tjs:FrameworkURI>http://example.org/frameworks/counties</tjs:FrameworkURI>
    <tjs:Organization>Example Census Bureau</tjs:Organization>
    <tjs:Title>Counties</tjs:Title>
    <tjs:Abstract>County boundaries</tjs:Abstract>
    <tjs:ReferenceDate>2020</tjs:ReferenceDate>
    <tjs:Version>1</tjs:Version>
    <tjs:FrameworkKey>
      <tjs:Column name="FIPS" type="http://www.w3.org/TR/xmlschema-2/#string" length="5"/>
    </tjs:FrameworkKey>
    <tjs:BoundingCoordinates>
      <tjs:North>71.5</tjs:North>
      <tjs:South>18.9</tjs:South>
      <tjs:East>-66.9</tjs:East>
      <tjs:West>-179.2</tjs:West>
    </tjs:BoundingCoordinates>
    <tjs:DescribeDatasetsRequest xlink:href="http://example.org/tjs?request=DescribeDatasets"/>
    <tjs:Dataset>
      <tjs:DatasetURI>http://example.org/datasets/households</tjs:DatasetURI>
      <tjs:Organization>Example Census Bureau</tjs:Organization>
      <tjs:Title>Households</tjs:Title>
      <tjs:Abstract>Households and median income</tjs:Abstract>
      <tjs:ReferenceDate>2020</tjs:ReferenceDate>
      <tjs:Version>1</tjs:Version>
      <tjs:DescribeDataRequest xlink:href="http://example.org/tjs?request=DescribeData"/>
      <tjs:Columnset>
        <tjs:FrameworkKey complete="true" relationship="one">
          <tjs:Column name="FIPS" type="http://www.w3.org/TR/xmlschema-2/#string" length="5"/>
        </tjs:FrameworkKey>
        <tjs:Attributes>
          <tjs:Column name="HH" type="http://www.w3.org/TR/xmlschema-2/#integer"
              length="9" purpose="Attribute">
            <tjs:Title>Households</tjs:Title>
            <tjs:Abstract>Occupied housing units</tjs:Abstract>
            <tjs:Values>
              <tjs:Count>
                <tjs:UOM>
                  <tjs:ShortForm>hh</tjs:ShortForm>
                  <tjs:LongForm>households</tjs:LongForm>
                </tjs:UOM>
              </tjs:Count>
            </tjs:Values>
          </tjs:Column>
          <tjs:Column name="INCOME" type="http://www.w3.org/TR/xmlschema-2/#decimal"
              length="10" decimals="2" purpose="Attribute">
            <tjs:Title>Median income</tjs:Title>
            <tjs:Abstract>Median household income</tjs:Abstract>
            <tjs:Values>
              <tjs:Measure>
                <tjs:UOM>
                  <tjs:ShortForm>USD</tjs:ShortForm>
                  <tjs:LongForm>US dollars</tjs:LongForm>
                </tjs:UOM>
                <tjs:Exceptions>
                  <tjs:Null>
                    <tjs:Identifier>-1</tjs:Identifier>
                    <tjs:Title>Suppressed</tjs:Title>
                    <tjs:Abstract>Withheld for disclosure protection</tjs:Abstract>
                  </tjs:Null>
                </tjs:Exceptions>
              </tjs:Measure>
            </tjs:Values>
          </tjs:Column>
        </tjs:Attributes>
      </tjs:Columnset>
      <tjs:Rowset>
"#

def tail : String := r#"      </tjs:Rowset>
    </tjs:Dataset>
  </tjs:Framework>
</tjs:GDAS>
"#

/-- The pieces of a row: its key with at least five digits, the households, and the income with
two places or the null value. -/
def rowPieces (row : UInt64) : Except Overrun (List String) := do
  let households ← addWord 1000 (← mulWord row 37)
  let cells := ["        <tjs:Row><tjs:K>", paddedDigits 5 row.toNat, "</tjs:K><tjs:V>",
    unsignedText households]
  if row % 10 = 9 then
    return cells ++ ["</tjs:V><tjs:V null=\"true\">-1</tjs:V></tjs:Row>\n"]
  else
    let income ← addWord 40000 (← mulWord row 11)
    return cells ++ ["</tjs:V><tjs:V>", unsignedText income, ".",
      paddedDigits 2 (row % 100).toNat, "</tjs:V></tjs:Row>\n"]

def writeRow (b : Buffer) (row : Nat) : Except Overrun Buffer := do
  b.pushAll (← rowPieces (.ofNat row))

/-- Writes rows between two texts, with room reserved for both and for each row. -/
def writeBetween (front back : String) (rows : UInt64) : Except Overrun String := do
  let frame ← addWord (.ofNat front.utf8ByteSize) (.ofNat back.utf8ByteSize)
  let room ← addWord frame (← mulWord rows 96)
  let b ← Buffer.reserve room.toNat
  let b ← b.push front
  let b ← (List.range rows.toNat).foldlM writeRow b
  return (← b.push back).text

/-- Writes the sample with the given number of rows. -/
def write (rows : UInt64) : Except Overrun String :=
  writeBetween head tail rows

/-- Why there is no sample. -/
inductive Failure where
  | overrun (o : Overrun)
  | undecodable (error : DocumentError)
  | otherRoot (root : Root)
deriving DecidableEq, Repr

/-- The sample itself, as it is decoded from its text. -/
def document (rows : UInt64) : Except Failure Document := do
  let xml ← (write rows).mapError .overrun
  let d ← (Document.decode false xml).mapError .undecodable
  if d.root = .attributeSet then return d else throw (.otherRoot d.root)

end TableJoin.Sample
