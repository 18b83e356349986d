import Mathlib.Data.Rat.Defs
import PaintingCPS.Foundation.IntStream
import PaintingCPS.Foundation.Plurality

/-!
Contract: the two copies of the class `ImgMatch`, in the server and in the
Storm library.

OpenCV is a parameter: decoding, descriptor extraction and the search of the
nearest neighbours. Only the first neighbour's index and the two distances are
read. Float products with a decimal factor are exact rationals.

Owns: the tables, their computation by `init_DB`, the files, `init_matchImg`,
and both versions of `matchImg`.

Does not own: any property of them. The text database, timing and the output
on the console are absent.
-/

set_option autoImplicit false

namespace PaintingCPS

open Foundation

/-- `v.at(n)` -/
def vectorAt (vector : List Int) (position : Int) : Except Fault Int :=
  if position < 0 then .error .uncaughtException
  else
    match vector[position.toNat]? with
    | none => .error .uncaughtException
    | some value => .ok value

/-- A row of `indices` and `dists`: the index of the nearest descriptor, its
distance, and the distance of the second nearest. -/
structure Neighbour where
  index : Int
  near : Rat
  far : Rat
deriving DecidableEq, Repr

/-- What the matching code uses of OpenCV. -/
structure OpenCV (Image Row : Type) where
  /-- `imdecode`, and `imread` of a file with these bytes. -/
  decode : List Byte → Option Image
  /-- `detect` and `compute`, row by row. -/
  descriptors : Image → List Row
  /-- `knnSearch` in the tree over the first argument. -/
  knnSearch : List Row → List Row → List Neighbour

namespace ImgMatch

/-- The static members that matching uses, and the two counters of the file. -/
structure Statics (Row : Type) where
  indexIMG : List Int
  dscCntIMG : List Int
  featureCluster : List Row
  lastIndex : Int
  imgCount : Int

/-- The statics of a process that has just started. -/
def Statics.fresh (Row : Type) : Statics Row where
  indexIMG := []
  dscCntIMG := []
  featureCluster := []
  lastIndex := 0
  imgCount := 0

/-- The files that `init_DB` writes. `cv::FileStorage` keeps a matrix as it
is. -/
structure Files (Row : Type) where
  indexImgTable : List Byte
  indexDscNo : List Byte
  imgIndexYml : List Row

section Tables

variable {Row : Type}

/-! ## Training -/

/-- One image of the database: its descriptors go into the matrix, and each of
them gets the number of the image. -/
def addImage (statics : Statics Row) (number : Int) (despDB : List Row) : Statics Row :=
  { statics with
    featureCluster := statics.featureCluster ++ despDB
    indexIMG := statics.indexIMG ++ List.replicate despDB.length number }

/-- The loop over the images `from`, …, `from + count - 1`. `none` is the return
at an image that cannot be read. -/
def readImages (database : Nat → Option (List Row)) :
    Nat → Nat → Statics Row → Option (Statics Row)
  | 0, _, statics => some statics
  | count + 1, number, statics =>
      match database number with
      | none => none
      | some despDB => readImages database count (number + 1) (addImage statics number despDB)

/-- One pass of the loop that counts descriptors. The inner condition assigns
to the element of `index_IMG` that `t` refers to. -/
def countDescriptor (statics : Statics Row) (t : Int) : Except Fault (Statics Row × Int) :=
  if t ≠ statics.lastIndex then
    let t := statics.lastIndex + 1
    if t ≠ 0 then do
      if statics.imgCount ≠ 0 then
        let _ ← vectorAt statics.dscCntIMG (statics.imgCount - 1)
      return ({ statics with
        dscCntIMG := statics.dscCntIMG ++ [1]
        lastIndex := statics.lastIndex + 1
        imgCount := statics.imgCount + 1 }, t)
    else
      .ok ({ statics with
        dscCntIMG := statics.dscCntIMG ++ [0, 1]
        lastIndex := statics.lastIndex + 2
        imgCount := statics.imgCount + 2 }, t)
  else do
    let count ← vectorAt statics.dscCntIMG (t - 1)
    return ({ statics with
      dscCntIMG := statics.dscCntIMG.set (t - 1).toNat (count + 1) }, t)

/-- `for (auto &t : index_IMG)`: the elements done so far and those to come. -/
def countDescriptors : List Int → List Int → Statics Row → Except Fault (Statics Row)
  | written, [], statics => .ok { statics with indexIMG := written }
  | written, t :: rest, statics => do
      let (after, assigned) ← countDescriptor statics t
      countDescriptors (written ++ [assigned]) rest after

/-- `init_DB`: the statics afterwards and the files, or `none` for the early
return. `indexImgTable` is written before the counting loop. -/
def initDB (database : Nat → Option (List Row)) (sizeDB : Nat) (statics : Statics Row) :
    Except Fault (Option (Statics Row × Files Row)) :=
  match readImages database sizeDB 1 statics with
  | none => .ok none
  | some collected => do
      let counted ← countDescriptors [] collected.indexIMG collected
      return some (counted,
        { indexImgTable := writeInts collected.indexIMG
          indexDscNo := writeInts counted.dscCntIMG
          imgIndexYml := counted.featureCluster })

/-! ## Loading -/

/-- `init_matchImg`: the two tables are appended, the matrix is replaced. -/
def initMatchImg (files : Files Row) (statics : Statics Row) : Statics Row :=
  { statics with
    indexIMG := statics.indexIMG ++ readInts files.indexImgTable
    dscCntIMG := statics.dscCntIMG ++ readInts files.indexDscNo
    featureCluster := files.imgIndexYml }

end Tables

/-! ## The vote -/

structure ImgFreq where
  imgIndex : Int
  freq : Nat
deriving DecidableEq, Repr

def nndrRatio : Rat := 4 / 5

/-- A descriptor votes when its nearest neighbour is clearly the nearest. -/
def Neighbour.votes (answer : Neighbour) : Prop := answer.near < answer.far * nndrRatio

instance (answer : Neighbour) : Decidable (Neighbour.votes answer) :=
  inferInstanceAs (Decidable (answer.near < answer.far * nndrRatio))

/-- One vote: every entry with this image is incremented, or a new one is
appended. -/
def castVote (imgFreq : List ImgFreq) (imgNum : Int) : List ImgFreq :=
  let findImgNum := imgFreq.any fun t => t.imgIndex == imgNum
  let counted := imgFreq.map fun t =>
    if t.imgIndex = imgNum then { t with freq := t.freq + 1 } else t
  if findImgNum then counted else counted ++ [⟨imgNum, 1⟩]

/-- The loop over the rows of `indices`. -/
def countVotes (indexIMG : List Int) : List ImgFreq → List Neighbour → Except Fault (List ImgFreq)
  | imgFreq, [] => .ok imgFreq
  | imgFreq, answer :: rest =>
      if Neighbour.votes answer then do
        let imgNum ← vectorAt indexIMG answer.index
        countVotes indexIMG (castVote imgFreq imgNum) rest
      else countVotes indexIMG imgFreq rest

def maxFreq (imgFreq : List ImgFreq) : Nat := scanMax ImgFreq.freq 1 imgFreq

/-- The image of the last entry with `maxFreq` votes, 0 without entries. -/
def matchedImgIndex (imgFreq : List ImgFreq) : Int :=
  scanLast (fun t => t.freq = maxFreq imgFreq) ImgFreq.imgIndex 0 imgFreq

/-- The vote on all rows: `matchedImgIndex` and `maxFreq`. -/
def bestMatch (indexIMG : List Int) (answers : List Neighbour) : Except Fault (Int × Nat) := do
  let imgFreq ← countVotes indexIMG [] answers
  return (matchedImgIndex imgFreq, maxFreq imgFreq)

end ImgMatch

/-! ## Matching -/

section Match

variable {Image Row : Type}

/-- The server's `ImgMatch::matchImg`: the member `matchedImgIndex` afterwards.
`file` is what the named file holds. -/
def Local.matchImg (cv : OpenCV Image Row) (statics : ImgMatch.Statics Row)
    (file : Option (List Byte)) : Except Fault Int :=
  match file.bind cv.decode with
  | none => .ok 0
  | some srcImg =>
      let despSRC := cv.descriptors srcImg
      if despSRC.isEmpty then .ok 0
      else do
        let (matched, maxFreq) ←
          ImgMatch.bestMatch statics.indexIMG (cv.knnSearch statics.featureCluster despSRC)
        if matched ≠ 0 then
          let dscCnt ← vectorAt statics.dscCntIMG (matched - 1)
          if (maxFreq : Rat) < 15 / 1000 * dscCnt then
            return 0
        return matched

/-- The text of a result without a match. -/
def Storm.noMatch : List Byte := ascii "0,0,0,0,0,0,0,0,0,"

/-- The Storm library's `ImgMatch::matchImg`: the string it returns. A
`std::string` cannot be made from `NULL`. -/
def Storm.matchImg (cv : OpenCV Image Row) (statics : ImgMatch.Statics Row)
    (img : List Byte) (size : Int) : Except Fault (List Byte) := do
  let jpgbytes ← readBytes img size
  match cv.decode jpgbytes with
  | none => .error .uncaughtException
  | some srcImg =>
      let despSRC := cv.descriptors srcImg
      if despSRC.isEmpty then return Storm.noMatch
      else
        let (matched, maxFreq) ←
          ImgMatch.bestMatch statics.indexIMG (cv.knnSearch statics.featureCluster despSRC)
        if matched ≠ 0 then
          let dscCnt ← vectorAt statics.dscCntIMG (matched - 1)
          if (maxFreq : Rat) < 2 / 100 * dscCnt then
            return Storm.noMatch
        return decimalInt matched ++ ascii ",0,0,0,0,0,0,0,0,"

end Match

end PaintingCPS
