/-!
# The distribution

What this library is distributed as, and what it says about itself.
-/
namespace WebForm

structure Distribution where
  name : String
  version : String
  description : String
  license : String
  platforms : List String
  isZipSafe : Bool
  requirements : List String
  /-- Requirements of optional features by feature. -/
  extras : List (String × List String)
  packages : List String
  languageVersion : String
  classifiers : List String
  deriving DecidableEq, Repr

inductive Metadatum where
  | text (s : String)
  | list (items : List String)
  | table (entries : List (String × List String))
  | truth (b : Bool)
  deriving DecidableEq, Repr

namespace Distribution

/-- Case and the choice of separators do not count in a name; runs of them are one. -/
def normalizedChars : List Char → List Char
  | [] => []
  | [c] => if c ∈ ['-', '_', '.'] then ['_'] else [c.toLower]
  | c :: d :: r =>
    if c ∈ ['-', '_', '.'] then
      if d ∈ ['-', '_', '.'] then normalizedChars (d :: r) else '_' :: normalizedChars (d :: r)
    else c.toLower :: normalizedChars (d :: r)

def fullName (d : Distribution) : String :=
  String.ofList (normalizedChars d.name.toList) ++ "-" ++ d.version

def metadatum? (d : Distribution) : String → Option Metadatum
  | "name" => some (.text d.name)
  | "version" => some (.text d.version)
  | "fullname" => some (.text d.fullName)
  | "description" => some (.text d.description)
  | "license" => some (.text d.license)
  | "platforms" => some (.list d.platforms)
  | "zip_safe" => some (.truth d.isZipSafe)
  | "install_requires" => some (.list d.requirements)
  | "extras_require" => some (.table d.extras)
  | "packages" => some (.list d.packages)
  | "python_requires" => some (.text d.languageVersion)
  | "classifiers" => some (.list d.classifiers)
  | _ => none

def testRequirements : List String := ["pytest", "pytest-cov", "pytest-timeout", "PyYAML"]

def current : Distribution where
  name := "python-pushform"
  version := "0.1.0"
  description := "Incremental parsing of typed values from form fields"
  license := "Apache"
  platforms := ["any"]
  isZipSafe := false
  requirements := ["python-multipart>=0.0.13"]
  extras :=
    [("test", testRequirements), ("dev", testRequirements ++ ["invoke", "nox", "atheris"])]
  packages := ["pushform"]
  languageVersion := ">=3.10"
  classifiers :=
    ["Development Status :: 3 - Alpha",
      "Environment :: Web Environment",
      "Intended Audience :: Developers",
      "License :: OSI Approved :: Apache Software License",
      "Operating System :: OS Independent",
      "Programming Language :: Python :: 3 :: Only",
      "Programming Language :: Python :: 3",
      "Programming Language :: Python :: 3.10",
      "Programming Language :: Python :: 3.11",
      "Programming Language :: Python :: 3.12",
      "Topic :: Internet :: WWW/HTTP",
      "Topic :: Software Development :: Libraries :: Python Modules"]

end Distribution

end WebForm
